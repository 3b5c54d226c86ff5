import ScriptNav.Config.Basic

/-! The section of a configuration file that the program writes and keeps up to date. Two marks on
lines of their own enclose it, and what stands outside of them is left alone. -/
namespace ScriptNav.Command.Section

open Text

def startMark : Text := "# gscnav:start"

def endMark : Text := "# gscnav:end"

/-- The default settings with their explanations. -/
def body : Text :=
  let config := Config.default "."
  "[workspace]\n" ++
  "# Directories scanned for scripts, relative to this file.\n" ++
  "roots = [\".\"]\n" ++
  "# Extension appended to module paths referenced from non-script files.\n" ++
  "extension = " ++ quoted config.extension ++ "\n" ++
  "# Gitignore-style patterns of files never scanned.\n" ++
  "exclude = []\n" ++
  "# Files larger than this many bytes are never scanned.\n" ++
  "max_file_size = " ++ ofInt config.maxFileSize ++ "\n" ++
  "respect_gitignore = " ++ (if config.respectGitignore then "true" else "false") ++ "\n\n" ++
  "[resolve]\n" ++
  "# Concurrent file scans per lookup; 0 uses every CPU.\n" ++
  "workers = " ++ ofInt config.workers ++ "\n\n" ++
  "[log]\n" ++
  "# debug, info, warn, or error. GSCNAV_LOG_LEVEL overrides.\n" ++
  "level = " ++ quoted config.logLevel

/-- The section with its marks. -/
def generated : Text := startMark ++ "\n" ++ body ++ "\n" ++ endMark

/-- Puts a section in the place of the one that the first marks enclose, or at the end after an
empty line. -/
def apply (content new : Text) : Text :=
  let front := (find? startMark content).map Prod.fst
  let upToEnd := find? endMark content
  let appended :=
    if content.isEmpty then new ++ [newline]
    else
      let ended := if endsWith [newline] content then content else content ++ [newline]
      ended ++ newline :: new ++ [newline]
  match front, upToEnd with
  | some front, some (upToEnd, rest) =>
    if front.length < upToEnd.length then front ++ new ++ rest else appended
  | _, _ => appended

end ScriptNav.Command.Section
