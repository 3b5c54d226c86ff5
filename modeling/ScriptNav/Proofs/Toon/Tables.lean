import Mathlib.Logic.Function.Basic
import ScriptNav.Proofs.Text.Cut
import ScriptNav.Proofs.Text.Numeral
import ScriptNav.Toon

/-! Tables read back. A value without quotes holds no mark of the notation, and one that is quoted
holds none outside its quotes; so the commas outside quotes divide a row into its cells, the ends of
lines divide a table into its rows, and a table determines its rows. -/
namespace ScriptNav.Toon

open Text

/-- Where a reader stands: outside of quotes, between them, or behind a backslash. -/
inductive Place where
  | outside
  | quoted
  | escaped
deriving DecidableEq

def Place.next : Place → UInt8 → Place
  | .outside, b => if b == quote then .quoted else .outside
  | .quoted, b => if b == quote then .outside else if b == backslash then .escaped else .quoted
  | .escaped, _ => .quoted

/-- The number of commas outside of quotes. -/
def outerCommas : Place → Text → Nat
  | _, [] => 0
  | p, b :: t => (if p = .outside ∧ b = comma then 1 else 0) + outerCommas (p.next b) t

/-- Pieces with a text in front of the first. -/
def prepend (t : Text) (ps : List Text) : List Text := (t ++ ps.headD []) :: ps.tail

/-- The pieces between the commas outside of quotes. -/
def pieces : Place → Text → List Text
  | _, [] => [[]]
  | p, b :: t =>
    if p = .outside ∧ b = comma then [] :: pieces .outside t
    else prepend [b] (pieces (p.next b) t)

/-- The byte that an escape stands for. -/
def unescapeByte? (b : UInt8) : Option UInt8 :=
  if b == backslash || b == quote then some b
  else if b == 110 then some newline
  else if b == 114 then some carriage
  else if b == 116 then some tab
  else none

/-- What stands between quotes, up to the closing quote at the end. -/
def unquote? : Text → Option Text
  | [] => none
  | b :: t =>
    if b == quote then if t.isEmpty then some [] else none
    else if b == backslash then
      match t with
      | [] => none
      | c :: t => (unescapeByte? c).bind fun b => (unquote? t).map (b :: ·)
    else (unquote? t).map (b :: ·)

/-- The text that a piece of a row stands for. -/
def readValue? : Text → Option Text
  | [] => some []
  | b :: t => if b == quote then unquote? t else some (b :: t)

/-- The cells of a line of a table. -/
def readRow? (line : Text) : Option (List Text) :=
  (after? "  " line).bind fun t => (pieces .outside t).mapM readValue?

section Values
variable {t : Text}

theorem mem_of_isNumeric (h : isNumeric t = true) :
    ∀ b ∈ t, isDigit b = true ∨ b = minus ∨ b = dot := by
  have hunsigned : ∀ b ∈ (after? "-" t).getD t, isDigit b = true ∨ b = dot := by
    unfold isNumeric at h
    dsimp only at h
    generalize (after? "-" t).getD t = u at h
    intro b hb
    rw [← List.takeWhile_append_dropWhile (p := isDigit) (l := u), List.mem_append] at hb
    obtain hb | hb := hb
    · exact .inl (List.mem_takeWhile_imp hb)
    · rw [drop_length_takeWhile] at h
      cases hrest : u.dropWhile isDigit with
      | nil => simp [hrest] at hb
      | cons c fraction =>
        simp only [hrest, Bool.and_eq_true, beq_iff_eq, List.all_eq_true] at h hb
        obtain ⟨⟨⟨-, rfl⟩, -⟩, hdigits⟩ := h
        obtain rfl | hb := List.mem_cons.1 hb
        · exact .inr rfl
        · exact .inl (hdigits b hb)
  intro b hb
  cases hsign : after? "-" t with
  | none =>
    rw [hsign] at hunsigned
    exact (hunsigned b hb).imp_right .inr
  | some u =>
    rw [hsign] at hunsigned
    rw [after?_eq_some_iff.1 hsign, List.mem_append] at hb
    obtain hb | hb := hb
    · exact .inr (.inl (List.mem_singleton.1 hb))
    · exact (hunsigned b hb).imp_right .inr

/-- A value that needs no quotes is not empty, and holds neither a mark of a table nor a quote. -/
theorem plain_of_needsQuotes (h : needsQuotes t = false) :
    t ≠ [] ∧ ∀ b ∈ t, b ≠ newline ∧ b ≠ comma ∧ b ≠ quote := by
  simp only [needsQuotes, Bool.or_eq_false_iff, Bool.and_eq_false_iff, Bool.not_eq_false'] at h
  obtain ⟨⟨⟨⟨hempty, -⟩, hcontrol⟩, -⟩, hmarks⟩ := h
  have hmark : ∀ b ∈ t, b ≠ comma ∧ b ≠ quote := by
    intro b hb
    obtain hnumeric | ⟨hmark, -⟩ := hmarks
    · obtain hdigit | rfl | rfl := mem_of_isNumeric hnumeric b hb
      · constructor <;> rintro rfl <;> exact absurd hdigit (by decide)
      · decide
      · decide
    · have hfree := List.any_eq_false.1 hmark b hb
      constructor <;> rintro rfl <;> exact hfree (by decide)
  refine ⟨by simpa using hempty, fun b hb => ⟨?_, hmark b hb⟩⟩
  rintro rfl
  simpa using List.any_eq_false.1 hcontrol _ hb

end Values

section Pieces
variable (t rest : Text) (p : Place)

theorem prepend_prepend (u : Text) (ps : List Text) :
    prepend t (prepend u ps) = prepend (t ++ u) ps := by
  simp [prepend]

/-- There is one piece more than commas. -/
theorem length_pieces : (pieces p t).length = outerCommas p t + 1 := by
  induction t generalizing p with
  | nil => rfl
  | cons b t ih =>
    unfold pieces outerCommas
    split_ifs with hcomma
    · obtain ⟨rfl, rfl⟩ := hcomma
      rw [List.length_cons, ih, show Place.outside.next comma = .outside from rfl]
      omega
    · have hpos := ih (p.next b)
      simp only [prepend, List.length_cons, List.length_tail]
      omega

theorem prepend_nil_pieces : prepend [] (pieces p t) = pieces p t := by
  have hlength := length_pieces t p
  cases hpieces : pieces p t with
  | nil => simp [hpieces] at hlength
  | cons piece ps => rfl

theorem pieces_plain {t : Text} (h : ∀ b ∈ t, b ≠ comma ∧ b ≠ quote) :
    pieces .outside (t ++ rest) = prepend t (pieces .outside rest) := by
  induction t with
  | nil => exact (prepend_nil_pieces rest .outside).symm
  | cons b t ih =>
    obtain ⟨hcomma, hquote⟩ := h b List.mem_cons_self
    have hnext : Place.outside.next b = .outside := by simp [Place.next, hquote]
    rw [List.cons_append, pieces, if_neg (by simp [hcomma]), hnext,
      ih fun b hb => h b (List.mem_cons_of_mem _ hb), prepend_prepend]
    rfl

theorem pieces_escapeByte (b : UInt8) :
    pieces .quoted (escapeByte b ++ rest) = prepend (escapeByte b) (pieces .quoted rest) := by
  unfold escapeByte
  split_ifs with hback hquote hnewline hcarriage htab <;> try rfl
  have hnext : Place.quoted.next b = .quoted := by
    simp only [beq_iff_eq] at hback hquote
    simp [Place.next, hquote, hback]
  rw [List.singleton_append, pieces, if_neg (by simp), hnext]

theorem pieces_escaped :
    pieces .quoted (t.flatMap escapeByte ++ rest) =
      prepend (t.flatMap escapeByte) (pieces .quoted rest) := by
  induction t with
  | nil => exact (prepend_nil_pieces rest .quoted).symm
  | cons b t ih =>
    rw [List.flatMap_cons, List.append_assoc, pieces_escapeByte, ih, prepend_prepend]

/-- A value stays in one piece. -/
theorem pieces_value :
    pieces .outside (value t ++ rest) = prepend (value t) (pieces .outside rest) := by
  unfold value
  split_ifs with h
  · have hopen : pieces .outside (quoteValue t ++ rest) =
        prepend [quote] (pieces .quoted (t.flatMap escapeByte ++ quote :: rest)) := by
      rw [quoteValue, List.append_assoc]
      rfl
    have hclose : pieces .quoted (quote :: rest) = prepend [quote] (pieces .outside rest) := rfl
    rw [hopen, pieces_escaped, hclose, prepend_prepend, prepend_prepend]
    rfl
  · exact pieces_plain rest fun b hb => ((plain_of_needsQuotes (by simpa using h)).2 b hb).2

/-- A row is divided into the values of its cells. -/
theorem pieces_row {cells : List Text} (hne : cells ≠ []) :
    pieces .outside (row cells) = cells.map value := by
  unfold row
  induction cells with
  | nil => exact absurd rfl hne
  | cons cell cells ih =>
    cases cells with
    | nil =>
      have hone := pieces_value cell []
      rw [List.append_nil] at hone
      rw [List.map_singleton, join, List.intercalate_singleton, hone]
      simp [prepend, pieces]
    | cons next cells =>
      have hcomma (t : Text) : pieces .outside (comma :: t) = [] :: pieces .outside t := rfl
      rw [List.map_cons, List.map_cons, join_cons_cons, pieces_value, hcomma, ← List.map_cons,
        ih (by simp)]
      simp [prepend]

end Pieces

section Reading
variable (t rest : Text)

theorem unquote?_escapeByte (b : UInt8) :
    unquote? (escapeByte b ++ rest) = (unquote? rest).map (b :: ·) := by
  unfold escapeByte
  split_ifs with hback hquote hnewline hcarriage htab
  · rw [eq_of_beq hback]
    rfl
  · rw [eq_of_beq hquote]
    rfl
  · rw [eq_of_beq hnewline]
    rfl
  · rw [eq_of_beq hcarriage]
    rfl
  · rw [eq_of_beq htab]
    rfl
  · rw [List.singleton_append, unquote?.eq_def]
    simp only [hquote, hback]
    rfl

theorem unquote?_escaped : unquote? (t.flatMap escapeByte ++ [quote]) = some t := by
  induction t with
  | nil => rfl
  | cons b t ih =>
    rw [List.flatMap_cons, List.append_assoc, unquote?_escapeByte, ih]
    rfl

/-- A value is read back. -/
theorem readValue?_value : readValue? (value t) = some t := by
  unfold value
  split_ifs with h
  · exact unquote?_escaped t
  · obtain ⟨hne, hplain⟩ := plain_of_needsQuotes (by simpa using h)
    cases t with
    | nil => exact absurd rfl hne
    | cons b t =>
      have hquote := (hplain b List.mem_cons_self).2.2
      simp [readValue?, hquote]

theorem value_injective : Function.Injective value := by
  intro t u h
  have hread := congrArg readValue? h
  rwa [readValue?_value, readValue?_value, Option.some.injEq] at hread

theorem mapM_map_eq_some {α β : Type} {f : α → β} {g : β → Option α} {as : List α}
    (h : ∀ a ∈ as, g (f a) = some a) : (as.map f).mapM g = some as := by
  induction as with
  | nil => rfl
  | cons a as ih =>
    rw [List.map_cons, List.mapM_cons, h a List.mem_cons_self,
      ih fun a ha => h a (List.mem_cons_of_mem _ ha)]
    rfl

/-- The line of a row in a table. -/
def rowLine (cells : List Text) : Text := "  " ++ row cells

/-- A line is read back as its row. -/
theorem readRow?_rowLine {cells : List Text} (hne : cells ≠ []) :
    readRow? (rowLine cells) = some cells := by
  have hafter : after? "  " (rowLine cells) = some (row cells) := after?_eq_some_iff.2 rfl
  rw [readRow?, hafter, Option.bind_some, pieces_row hne]
  exact mapM_map_eq_some fun cell _ => readValue?_value cell

theorem outerCommas_cons {b : UInt8} (hcomma : b ≠ comma) (hquote : b ≠ quote) :
    outerCommas .outside (b :: t) = outerCommas .outside t := by
  simp [outerCommas, Place.next, hcomma, hquote]

theorem outerCommas_rowLine {cells : List Text} (hne : cells ≠ []) :
    outerCommas .outside (rowLine cells) = cells.length - 1 := by
  have hblanks : outerCommas .outside (rowLine cells) = outerCommas .outside (row cells) := by
    show outerCommas .outside (blank :: blank :: row cells) = _
    rw [outerCommas_cons _ (by decide) (by decide), outerCommas_cons _ (by decide) (by decide)]
  have hlength := length_pieces (row cells) .outside
  rw [pieces_row hne, List.length_map] at hlength
  omega

end Reading

section Lines

theorem newline_notMem_escapeByte (b : UInt8) : newline ∉ escapeByte b := by
  unfold escapeByte
  split_ifs with hback hquote hnewline <;> try decide
  intro hmem
  rw [← List.mem_singleton.1 hmem] at hnewline
  exact hnewline rfl

theorem newline_notMem_value (t : Text) : newline ∉ value t := by
  unfold value
  split_ifs with h
  · have hquote : newline ≠ quote := by decide
    simp [quoteValue, newline_notMem_escapeByte, hquote]
  · exact fun hmem => ((plain_of_needsQuotes (by simpa using h)).2 _ hmem).1 rfl

theorem newline_notMem_rowLine (cells : List Text) : newline ∉ rowLine cells := by
  intro hmem
  obtain hmem | hmem := List.mem_append.1 hmem
  · exact absurd hmem (by decide)
  · obtain hcomma | ⟨_, hpiece, hmem⟩ := mem_join hmem
    · exact absurd hcomma (by decide)
    · obtain ⟨cell, -, rfl⟩ := List.mem_map.1 hpiece
      exact newline_notMem_value cell hmem

theorem newline_notMem_header {name : Text} {columns : List Text} (hname : newline ∉ name)
    (hcolumns : ∀ column ∈ columns, newline ∉ column) (count : Nat) :
    newline ∉ header name columns count := by
  have hjoin : newline ∉ join [comma] columns := by
    intro hmem
    obtain hcomma | ⟨column, hcolumn, hmem⟩ := mem_join hmem
    · exact absurd hcomma (by decide)
    · exact hcolumns column hcolumn hmem
  have hcount : newline ∉ ofNat count := fun hmem =>
    absurd (isDigit_of_mem_ofNat _ hmem) (by decide)
  simp only [header, List.mem_append, not_or]
  exact ⟨⟨⟨⟨⟨hname, by decide⟩, hcount⟩, by decide⟩, hjoin⟩, by decide⟩

/-- The lines of a table. -/
def tableLines (name : Text) (columns : List Text) (rows : List (List Text)) : List Text :=
  header name columns rows.length :: rows.map rowLine

theorem table_eq_lines (name : Text) (columns : List Text) (rows : List (List Text)) :
    table name columns rows = lines (tableLines name columns rows) := by
  unfold table lines tableLines
  generalize header name columns rows.length = first
  induction rows generalizing first with
  | nil => simp [join, List.intercalate_singleton]
  | cons cells rows ih =>
    rw [List.map_cons, join_cons_cons, ← ih]
    simp [rowLine]
    rfl

theorem split_table {name : Text} {columns : List Text} (hname : newline ∉ name)
    (hcolumns : ∀ column ∈ columns, newline ∉ column) (rows : List (List Text)) :
    (table name columns rows).split newline = tableLines name columns rows := by
  rw [table_eq_lines]
  refine split_join (List.cons_ne_nil _ _) ?_
  simp only [tableLines, List.forall_mem_cons, List.forall_mem_map]
  exact ⟨newline_notMem_header hname hcolumns _, fun cells _ => newline_notMem_rowLine cells⟩

end Lines

/-- Tables are unambiguous. The lines of a table are its header, with the number of its rows, and
one line for each row; outside of quotes a line has one comma less than it has cells, and these are
read back from the pieces between the commas. So a table determines its rows, and a value its text. -/
theorem table_unambiguous {name : Text} {columns : List Text} (hname : newline ∉ name)
    (hcolumns : ∀ column ∈ columns, newline ∉ column) (hne : columns ≠ [])
    {rows : List (List Text)} (hrows : ∀ cells ∈ rows, cells.length = columns.length) :
    (∃ digits rowLines,
      (table name columns rows).split newline =
          (name ++ "[" ++ digits ++ "]\x7b" ++ join [comma] columns ++ "\x7d:") :: rowLines ∧
        rowLines.length = rows.length ∧
        (∀ b ∈ digits, isDigit b = true) ∧ decimal digits = rowLines.length ∧
        (∀ line ∈ rowLines, outerCommas .outside line = columns.length - 1) ∧
        rowLines.mapM readRow? = some rows) ∧
      (∀ rows', (∀ cells ∈ rows', cells.length = columns.length) →
        table name columns rows' = table name columns rows → rows' = rows) ∧
      Function.Injective value := by
  have hfilled {rows : List (List Text)} (hrows : ∀ cells ∈ rows, cells.length = columns.length) :
      ∀ cells ∈ rows, cells ≠ [] := by
    intro cells hcells hnil
    have hlength := hrows cells hcells
    rw [hnil] at hlength
    exact hne (List.length_eq_zero_iff.1 hlength.symm)
  have hread {rows : List (List Text)} (hrows : ∀ cells ∈ rows, cells.length = columns.length) :
      (rows.map rowLine).mapM readRow? = some rows :=
    mapM_map_eq_some fun cells hcells => readRow?_rowLine (hfilled hrows cells hcells)
  refine ⟨⟨ofNat rows.length, rows.map rowLine, split_table hname hcolumns rows, by simp,
    isDigit_of_mem_ofNat, by rw [decimal_ofNat, List.length_map], ?_, hread hrows⟩, ?_,
    value_injective⟩
  · intro line hline
    obtain ⟨cells, hcells, rfl⟩ := List.mem_map.1 hline
    rw [outerCommas_rowLine (hfilled hrows cells hcells), hrows cells hcells]
  · intro rows' hrows' heq
    have hlines := congrArg (split newline) heq
    rw [split_table hname hcolumns, split_table hname hcolumns] at hlines
    have hsame := (hread hrows').symm.trans (congrArg (List.mapM readRow?) (List.cons.inj hlines).2)
    rw [hread hrows] at hsame
    exact Option.some.inj hsame

/-- Two rows with cells that hold commas, quotes, ends of lines and numbers. -/
theorem table_unambiguous_marks :
    let columns : List Text := ["a", "b"]
    let rows : List (List Text) := [[",\"", "x\n"], ["-1.5", ""]]
    (∀ cells ∈ rows, cells.length = columns.length) ∧
      table "t" columns rows = ("t[2]\x7ba,b\x7d:\n  \",\\\"\",\"x\\n\"\n  -1.5,\"\"" : String) ∧
      (∀ rows', (∀ cells ∈ rows', cells.length = columns.length) →
        table "t" columns rows' = table "t" columns rows → rows' = rows) := by
  intro columns rows
  have hrows : ∀ cells ∈ rows, cells.length = columns.length := by decide
  obtain ⟨-, hinjective, -⟩ := table_unambiguous (by decide : newline ∉ ofString "t")
    (by decide : ∀ column ∈ columns, newline ∉ column) (by decide) hrows
  exact ⟨hrows, by decide +kernel, hinjective⟩

end ScriptNav.Toon
