import ScriptNav.Catalog.Basic

/-! The built-in functions that are documented. -/
namespace ScriptNav.Catalog.Builtin

def games : List Text := ["cod4", "waw", "mw2", "bo1"]

def required (name : Text) : Param := { name := name }

def optional (name : Text) : Param := { name := name, isOptional := true }

def entries : List Entry := [
  { name := "isDefined"
    summary := "Returns true if the passed value is defined."
    usage := "if ( isDefined( self.target ) )"
    games := games
    params := [required "value"] },
  { name := "getEnt"
    summary := "Looks up a single entity by the given key and value. " ++
      "Errors if more than one matches."
    usage := "trigger = getEnt( \"bomb_trigger\", \"targetname\" );"
    games := games
    params := [required "name", required "key"] },
  { name := "getEntArray"
    summary := "Returns an array of entities matching the given key and value, or every entity " ++
      "when called without arguments."
    usage := "spawners = getEntArray( \"axis_spawner\", \"targetname\" );"
    games := games
    params := [optional "name", optional "key"] },
  { name := "spawn"
    summary := "Spawns a new entity and returns it."
    usage := "ent = spawn( \"script_model\", (0, 0, 0) );"
    games := games
    params := [required "classname", required "origin", optional "flags", optional "radius",
      optional "height"] },
  { name := "iPrintLn"
    callOn := "player"
    summary := "Writes a line of text to the kill feed area of the screen."
    usage := "self iPrintLn( \"Hello\" );"
    games := games
    params := [required "text"] },
  { name := "iPrintLnBold"
    callOn := "player"
    summary := "Writes a line of bold text to the centre of the screen."
    usage := "self iPrintLnBold( \"Round over\" );"
    games := games
    params := [required "text"] },
  { name := "setDvar"
    summary := "Sets the value of a dvar."
    usage := "setDvar( \"scr_game_spectatetype\", 1 );"
    games := games
    params := [required "dvar", required "value"] },
  { name := "getDvar"
    summary := "Returns the value of a dvar as a string."
    usage := "mapname = getDvar( \"mapname\" );"
    games := games
    params := [required "dvar"] },
  { name := "getDvarInt"
    summary := "Returns the value of a dvar as an integer."
    usage := "limit = getDvarInt( \"scr_dm_scorelimit\" );"
    games := games
    params := [required "dvar"] },
  { name := "distance"
    summary := "Returns the distance between two points."
    usage := "d = distance( self.origin, enemy.origin );"
    games := games
    params := [required "point1", required "point2"] },
  { name := "randomInt"
    summary := "Returns a random integer in [0, max)."
    usage := "index = randomInt( spawners.size );"
    games := games
    params := [required "max"] },
  { name := "randomIntRange"
    summary := "Returns a random integer in [min, max)."
    usage := "delay = randomIntRange( 3, 10 );"
    games := games
    params := [required "min", required "max"] },
  { name := "isPlayer"
    summary := "Returns true if the entity is a player."
    usage := "if ( isPlayer( attacker ) )"
    games := games
    params := [required "entity"] },
  { name := "isAlive"
    summary := "Returns true if the entity is alive."
    usage := "if ( isAlive( self ) )"
    games := games
    params := [required "entity"] },
  { name := "getTime"
    summary := "Returns the server time in milliseconds."
    usage := "start = getTime();"
    games := games },
  { name := "setModel"
    callOn := "entity"
    summary := "Sets the model of an entity."
    usage := "self setModel( \"body_mp_usmc_assault\" );"
    games := games
    params := [required "model"] },
  { name := "giveWeapon"
    callOn := "player"
    summary := "Gives the player a weapon."
    usage := "self giveWeapon( \"m16_mp\" );"
    games := games
    params := [required "weapon", optional "variant"] },
  { name := "playFx"
    summary := "Plays an effect at a position."
    usage := "playFx( level._effect[\"explosion\"], self.origin );"
    games := games
    params := [required "effect", required "origin", optional "forward", optional "up"] },
  { name := "precacheModel"
    summary := "Loads a model so it can be used later. Must be called before the first frame."
    usage := "precacheModel( \"com_plasticcase_beige_big\" );"
    games := games
    params := [required "model"] },
  { name := "vectorToAngles"
    summary := "Converts a direction vector to angles."
    usage := "angles = vectorToAngles( target.origin - self.origin );"
    games := games
    params := [required "vector"] }]

end ScriptNav.Catalog.Builtin
