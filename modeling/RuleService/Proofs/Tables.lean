import Mathlib.Data.List.DropRight
import Mathlib.Data.List.Forall2
import RuleService.Proofs.Cutting
import RuleService.Proofs.Repetition

namespace RuleService

open Effect

def withoutReturn (line : List Char) : List Char :=
  if line.getLast? = some '\r' then line.dropLast else line

/-- The lines of a text, each without one carriage return at its end. -/
def textLines (text : String) : List String :=
  (text.toList.splitOn '\n').map fun line => String.ofList (withoutReturn line)

/-- The lines that are more than white space, each with its number among all lines, which begin at a
number. -/
def keptFrom (n : Nat) (text : String) : List (String × Nat) :=
  ((textLines text).zipIdx n).filter fun line => !line.1.toList.all Text.isBlank

/-- The lines that count, numbered from one. -/
def keptLines (text : String) : List (String × Nat) := keptFrom 1 text

theorem withoutReturn_ended (line : List Char) : withoutReturn (line ++ ['\r']) = line := by
  simp [withoutReturn]

theorem withoutReturn_plain {line : List Char} (plain : line.getLast? ≠ some '\r') :
    withoutReturn line = line := if_neg plain

theorem lines_eq (text : String) : Text.lines text = textLines text := by
  rw [Text.lines, Text.splitChars_singleton, textLines]
  apply List.map_congr_left
  intro line _
  simp [withoutReturn]

theorem trimBlanks_eq_nil_iff (cs : List Char) :
    Text.trimBlanks cs = [] ↔ ∀ c ∈ cs, Text.isBlank c = true := by
  have trimmed : Text.trimBlanks cs = (cs.dropWhile Text.isBlank).rdropWhile Text.isBlank := rfl
  rw [trimmed, List.rdropWhile_eq_nil_iff, ← List.dropWhile_eq_nil_iff, List.dropWhile_idempotent,
    List.dropWhile_eq_nil_iff]

theorem isBlank_eq (line : String) : Row.isBlank line = line.toList.all Text.isBlank := by
  rw [Bool.eq_iff_iff, List.all_eq_true, ← trimBlanks_eq_nil_iff]
  simp [Row.isBlank, Text.trim]

theorem ofText_eq (delimiter text : String) :
    Row.ofText delimiter text =
      (keptLines text).map fun line => ⟨line.2, Text.split delimiter line.1⟩ := by
  have flag : (fun line : String × Nat => !line.1.toList.all Text.isBlank) =
      fun line => !Row.isBlank line.1 := by
    funext line
    rw [isBlank_eq]
  rw [Row.ofText, lines_eq, keptLines, keptFrom, flag]
  induction (textLines text).zipIdx 1 with
  | nil => rfl
  | cons line rest ih =>
    cases blank : Row.isBlank line.1 with
    | true => simpa [blank] using ih
    | false => simpa [blank] using ih

/-- The first line that counts names the cells. -/
def headed (desc : Fields) : Bool := (desc.get? "firstLineHeader").any Json.isTruthy

inductive Delimits (desc : Fields) : String → Prop
  | given {d : String} (found : desc.get? "delimiter" = some (.str d)) (some : d ≠ "") :
      Delimits desc d
  | comma (other : ∀ d, desc.get? "delimiter" = some (.str d) → d = "") : Delimits desc ","

/-- The names of the cells, by the descriptor alone. -/
inductive Lists (desc : Fields) : List String → Prop
  | given {vs : List Json} (found : desc.get? "headers" = some (.arr vs)) :
      Lists desc (vs.map Json.display)
  | none (other : ∀ vs, desc.get? "headers" ≠ some (.arr vs)) : Lists desc []

theorem Delimits.ne_empty {desc : Fields} {d : String} (delimits : Delimits desc d) : d ≠ "" := by
  cases delimits with
  | given found some => exact some
  | comma => decide

theorem delimits_ofFields (desc : Fields) : Delimits desc (RowLayout.ofFields desc).delimiter := by
  simp only [RowLayout.ofFields]
  split
  · next d found =>
    split
    · next empty =>
      refine .comma fun other found' => ?_
      cases found.symm.trans found'
      exact String.isEmpty_iff.mp empty
    · next some => exact .given found (by simpa using some)
  · next other => exact .comma fun d found => absurd found (other d)

theorem lists_ofFields (desc : Fields) : Lists desc (RowLayout.ofFields desc).names := by
  simp only [RowLayout.ofFields]
  split
  · next vs found => exact .given found
  · next other => exact .none other

/-- The cells of a line: joined they are the line, no delimiter is left in them, and each but the last
ends where the delimiter is found first. -/
structure Cells (delimiter line : String) (cells : List String) : Prop where
  joined : delimiter.intercalate cells = line
  free : ∀ cell ∈ cells, ¬ delimiter.toList <:+: cell.toList
  leftmost : Text.Cut delimiter.toList line.toList (cells.map String.toList)

theorem cells_split {delimiter : String} (some : delimiter ≠ "") (line : String) :
    Cells delimiter line (Text.split delimiter line) := by
  have cut : Text.Cut delimiter.toList line.toList ((Text.split delimiter line).map String.toList) :=
    (Text.split_iff some).mp rfl
  refine ⟨?_, fun cell listed => ?_, cut⟩
  · apply String.toList_injective
    rw [String.toList_intercalate, cut.join]
  · exact cut.not_infix (by simpa using some) _ (List.mem_map_of_mem listed)

theorem Cells.unique {delimiter line : String} {cells other : List String}
    (one : Cells delimiter line cells) (two : Cells delimiter line other) : cells = other :=
  List.map_injective_iff.mpr (fun _ _ same => String.toList_injective same) (one.leftmost.unique two.leftmost)

/-- What the names of the cells are bound to. -/
def named (names cells : List String) : Fields :=
  Named.putAll [] ((names.zip cells).map fun (name, cell) => (name, .str cell))

/-- Each name stands for the cell at its last place. -/
theorem get?_named {names cells : List String} {name : String} {v : Json} :
    (named names cells).get? name = some v ↔
      ∃ (i : Nat) (cell : String), names[i]? = some name ∧ cells[i]? = some cell ∧ v = .str cell ∧
        ∀ j, i < j → j < cells.length → names[j]? ≠ some name := by
  rw [named, Named.get?_putAll]
  have none : (Named.get? [] name : Option Json) = none := rfl
  rw [none, Option.or_none, lookup_reverse_iff]
  simp only [List.getElem?_map, Option.map_eq_some_iff, Prod.exists, Prod.mk.injEq,
    List.getElem?_zip_eq_some, ne_eq, not_exists, not_and]
  constructor
  · rintro ⟨i, ⟨_, cell, ⟨here, taken⟩, rfl, rfl⟩, last⟩
    refine ⟨i, cell, here, taken, rfl, fun j behind inside later => ?_⟩
    exact last j behind _ _ cells[j] ⟨later, List.getElem?_eq_getElem inside⟩ rfl rfl
  · rintro ⟨i, cell, here, taken, rfl, last⟩
    refine ⟨i, ⟨name, cell, ⟨here, taken⟩, rfl, rfl⟩, ?_⟩
    rintro j behind _ _ other ⟨later, found⟩ rfl
    have inside : j < cells.length := (List.getElem?_eq_some_iff.mp found).1
    exact absurd later (last j behind inside)

/-- What the element sees in a line. -/
def SeesRow (delimiter : String) (names : List String) (outer : Context) (line : String × Nat)
    (ctx : Context) : Prop :=
  ∃ cells col, Cells delimiter line.1 cells ∧
    ctx = outer.bindAll [("lineno", .int line.2), ("cols", .arr (cells.map .str)),
      ("col", .obj col)] ∧
    ∀ name v, Named.get? col name = some v ↔
      ∃ (i : Nat) (cell : String), names[i]? = some name ∧ cells[i]? = some cell ∧ v = .str cell ∧
        ∀ j, i < j → j < cells.length → names[j]? ≠ some name

theorem seesRow_locals {delimiter : String} (some : delimiter ≠ "") (names : List String)
    (outer : Context) (line : String × Nat) :
    SeesRow delimiter names outer line
      (outer.bindAll (Row.locals names ⟨line.2, Text.split delimiter line.1⟩)) :=
  ⟨_, named names (Text.split delimiter line.1), cells_split some line.1, rfl,
    fun _ _ => get?_named⟩

/-- The lines that are items. -/
def itemLines (desc : Fields) (content : String) : List (String × Nat) :=
  if headed desc then (keptLines content).tail else keptLines content

/-- The delimiter, the names of the cells and what the element sees, row by row, in a text. -/
structure Tabulates (desc : Fields) (content : String) (outer : Context) (delimiter : String)
    (names : List String) (contexts : List Context) : Prop where
  delimits : Delimits desc delimiter
  header : headed desc = true → ∀ line ∈ (keptLines content).head?, Cells delimiter line.1 names
  lists : headed desc = false → Lists desc names
  rows : List.Forall₂ (SeesRow delimiter names outer) (itemLines desc content) contexts

theorem rows_seen {delimiter : String} (some : delimiter ≠ "") (names : List String)
    (outer : Context) (lines : List (String × Nat)) :
    List.Forall₂ (SeesRow delimiter names outer) lines
      (((lines.map fun line => ⟨line.2, Text.split delimiter line.1⟩).map (Row.locals names)).map
        outer.bindAll) := by
  simp only [List.forall₂_map_right_iff, List.forall₂_same]
  intro line _
  exact seesRow_locals some names outer line

theorem tabulates_items (desc : Fields) (content : String) (outer : Context) :
    ∃ names, Tabulates desc content outer (RowLayout.ofFields desc).delimiter names
      (((RowLayout.ofFields desc).items content).map outer.bindAll) := by
  have delimits := delimits_ofFields desc
  have seen := fun names => rows_seen delimits.ne_empty names outer
  have top : (RowLayout.ofFields desc).headed = headed desc := rfl
  rw [RowLayout.items, RowLayout.table, ofText_eq, top]
  cases heading : headed desc with
  | false =>
    have lines : itemLines desc content = keptLines content := by simp [itemLines, heading]
    refine ⟨_, delimits, fun other => ?_, fun _ => lists_ofFields desc, ?_⟩
    · cases heading.symm.trans other
    · rw [lines]
      exact seen _ _
  | true =>
    have lines : itemLines desc content = (keptLines content).tail := by simp [itemLines, heading]
    cases kept : keptLines content with
    | nil =>
      refine ⟨[], delimits, fun _ line first => ?_, fun other => ?_, ?_⟩
      · rw [kept] at first
        cases first
      · cases heading.symm.trans other
      · rw [lines, kept]
        exact seen _ []
    | cons line rest =>
      refine ⟨Text.split (RowLayout.ofFields desc).delimiter line.1, delimits, ?_, fun other => ?_, ?_⟩
      · intro _ line' first
        rw [kept] at first
        obtain rfl : line = line' := Option.some.inj first
        exact cells_split delimits.ne_empty line.1
      · cases heading.symm.trans other
      · rw [lines, kept]
        exact seen _ rest

/-- The text of some lines, each ended in one of two ways; the last need not be ended. -/
inductive Written : List String → String → Prop
  | none : Written [] ""
  | last (line : String) : Written [line] line
  | more {line text ending : String} {lines : List String}
      (ended : ending = "\n" ∨ ending = "\r\n") (later : Written lines text) :
      Written (line :: lines) (line ++ ending ++ text)

/-- Lines that are found as they were written. -/
structure IsPlain (line : String) : Prop where
  single : '\n' ∉ line.toList
  ending : line.toList.getLast? ≠ some '\r'
  counts : ∃ c ∈ line.toList, Text.isBlank c = false

theorem textLines_single {text : String} (single : '\n' ∉ text.toList) :
    textLines text = [String.ofList (withoutReturn text.toList)] := by
  rw [textLines, List.splitOn_eq_singleton single]
  rfl

theorem textLines_more {front back : String} (single : '\n' ∉ front.toList) :
    textLines (front ++ "\n" ++ back) =
      String.ofList (withoutReturn front.toList) :: textLines back := by
  have text : (front ++ "\n" ++ back).toList = front.toList ++ '\n' :: back.toList := by simp
  rw [textLines, text, List.splitOn_append_cons_self_of_not_mem single]
  rfl

theorem IsPlain.withoutReturn_eq {line : String} (plain : IsPlain line) :
    String.ofList (withoutReturn line.toList) = line := by
  rw [withoutReturn_plain plain.ending, String.ofList_toList]

theorem keptFrom_written {lines : List String} {text : String} (written : Written lines text)
    (plain : ∀ line ∈ lines, IsPlain line) (n : Nat) : keptFrom n text = lines.zipIdx n := by
  induction written generalizing n with
  | none => rfl
  | last line =>
    have plain := plain line List.mem_cons_self
    rw [keptFrom, textLines_single plain.single, plain.withoutReturn_eq]
    simp [plain.counts]
  | @more line text ending lines ended later ih =>
    have first := plain line List.mem_cons_self
    have rest := ih (fun line listed => plain line (.tail _ listed)) (n + 1)
    have cut : textLines (line ++ ending ++ text) = line :: textLines text := by
      obtain rfl | rfl := ended
      · rw [textLines_more first.single, first.withoutReturn_eq]
      · have split : line ++ "\r\n" ++ text = line ++ "\r" ++ "\n" ++ text := by
          apply String.toList_injective
          simp
        have single : '\n' ∉ (line ++ "\r").toList := by simpa using first.single
        rw [split, textLines_more single]
        simp [withoutReturn_ended]
    rw [keptFrom] at rest ⊢
    rw [cut, List.zipIdx_cons, List.filter_cons, rest]
    simp [first.counts]

theorem mem_intercalate {c x : Char} {parts : List (List Char)}
    (inside : x ∈ [c].intercalate parts) : x = c ∨ ∃ part ∈ parts, x ∈ part := by
  induction parts with
  | nil => cases inside
  | cons part parts ih =>
    cases parts with
    | nil => exact .inr ⟨part, by simp, by simpa using inside⟩
    | cons next parts =>
      rw [List.intercalate_cons_cons, List.append_assoc, List.mem_append, List.mem_append,
        List.mem_singleton] at inside
      obtain own | between | later := inside
      · exact .inr ⟨part, by simp, own⟩
      · exact .inl between
      · obtain same | ⟨other, listed, own⟩ := ih later
        · exact .inl same
        · exact .inr ⟨other, .tail _ listed, own⟩

theorem getLast?_intercalate {c x : Char} {parts : List (List Char)}
    (last : ([c].intercalate parts).getLast? = some x) :
    x = c ∨ ∃ part ∈ parts.getLast?, part.getLast? = some x := by
  induction parts with
  | nil => cases last
  | cons part parts ih =>
    cases parts with
    | nil => exact .inr ⟨part, by simp, by simpa using last⟩
    | cons next parts =>
      rw [List.intercalate_cons_cons, List.getLast?_append, List.getLast?_concat,
        Option.or_eq_some_iff] at last
      obtain later | ⟨-, between⟩ := last
      · rw [List.getLast?_cons_cons]
        exact ih later
      · exact .inl (Option.some.inj between).symm

def rowText (d : Char) (row : List String) : String := (String.singleton d).intercalate row

/-- A row that can be written down: no cell holds a delimiter or a line end, and there is more in it
than white space. -/
structure Writable (d : Char) (row : List String) : Prop where
  free : ∀ cell ∈ row, d ∉ cell.toList ∧ '\n' ∉ cell.toList
  ending : ∀ cell ∈ row.getLast?, cell.toList.getLast? ≠ some '\r'
  counts : ∃ c ∈ (rowText d row).toList, Text.isBlank c = false

variable {d : Char} {row : List String}

theorem rowText_toList : (rowText d row).toList = [d].intercalate (row.map String.toList) := by
  rw [rowText, String.toList_intercalate, String.toList_singleton]

theorem Writable.isPlain (writable : Writable d row) (line : d ≠ '\n') (back : d ≠ '\r') :
    IsPlain (rowText d row) := by
  refine ⟨fun inside => ?_, fun last => ?_, writable.counts⟩
  · rw [rowText_toList] at inside
    obtain same | ⟨chars, listed, own⟩ := mem_intercalate inside
    · exact line same.symm
    · obtain ⟨cell, member, rfl⟩ := List.mem_map.mp listed
      exact (writable.free cell member).2 own
  · rw [rowText_toList] at last
    obtain same | ⟨chars, listed, own⟩ := getLast?_intercalate last
    · exact back same.symm
    · rw [List.getLast?_map, Option.mem_def, Option.map_eq_some_iff] at listed
      obtain ⟨cell, member, rfl⟩ := listed
      exact writable.ending cell member own

theorem Writable.cells (writable : Writable d row) :
    Cells (String.singleton d) (rowText d row) row := by
  have some : row ≠ [] := by
    rintro rfl
    obtain ⟨c, inside, -⟩ := writable.counts
    rw [rowText_toList] at inside
    cases inside
  have free : ∀ cell ∈ row.map String.toList, d ∉ cell := by
    intro chars listed
    obtain ⟨cell, member, rfl⟩ := List.mem_map.mp listed
    exact (writable.free cell member).1
  have split : Text.split (String.singleton d) (rowText d row) = row := by
    rw [Text.split_singleton, rowText_toList,
      List.splitOn_intercalate d free (by simpa using some), List.map_map]
    simp [Function.comp_def]
  have nonempty : String.singleton d ≠ "" := by simp
  have cells := cells_split nonempty (rowText d row)
  rwa [split] at cells

/-- The rows of a table and their numbers, without the first if it names the cells. -/
def itemRows (desc : Fields) (table : List (List String)) : List (List String × Nat) :=
  if headed desc then (table.zipIdx 1).tail else table.zipIdx 1

/-- The element sees exactly these cells in the line of this number. -/
def SeesCells (row : List String × Nat) (ctx : Context) : Prop :=
  ctx.locals.get? "lineno" = some (.int row.2) ∧
    ctx.locals.get? "cols" = some (.arr (row.1.map .str))

theorem SeesRow.seesCells {names : List String} {outer ctx : Context} {n : Nat}
    (writable : Writable d row)
    (sees : SeesRow (String.singleton d) names outer (rowText d row, n) ctx) :
    SeesCells (row, n) ctx := by
  obtain ⟨cells, col, cut, rfl, -⟩ := sees
  obtain rfl := writable.cells.unique cut
  refine ⟨?_, ?_⟩ <;> simp [Context.bindAll, Named.get?_putAll, lookup_cons_if]

/-- A table that is written down is found as it was. -/
theorem Tabulates.table {desc : Fields} {text : String} {outer : Context} {names : List String}
    {contexts : List Context} {table : List (List String)} (line : d ≠ '\n') (back : d ≠ '\r')
    (found : Tabulates desc text outer (String.singleton d) names contexts)
    (writable : ∀ row ∈ table, Writable d row) (written : Written (table.map (rowText d)) text) :
    (headed desc = true → ∀ header ∈ table.head?, names = header) ∧
      List.Forall₂ SeesCells (itemRows desc table) contexts := by
  have plain : ∀ line ∈ table.map (rowText d), IsPlain line := by
    intro text listed
    obtain ⟨row, member, rfl⟩ := List.mem_map.mp listed
    exact (writable row member).isPlain line back
  have kept : keptLines text = (table.zipIdx 1).map fun row => (rowText d row.1, row.2) := by
    have numbered := keptFrom_written written plain 1
    rwa [List.zipIdx_map] at numbered
  have lines : itemLines desc text =
      (itemRows desc table).map fun row => (rowText d row.1, row.2) := by
    rw [itemLines, itemRows, kept]
    split
    · rw [List.map_tail]
    · rfl
  have fit : ∀ row ∈ itemRows desc table, Writable d row.1 := by
    intro row listed
    have numbered : row ∈ table.zipIdx 1 := by
      rw [itemRows] at listed
      split at listed
      · exact List.mem_of_mem_tail listed
      · exact listed
    exact writable row.1 (List.fst_mem_of_mem_zipIdx numbered)
  constructor
  · intro heading header first
    have top : (rowText d header, 1) ∈ (keptLines text).head? := by
      cases table with
      | nil => cases first
      | cons row rest =>
        obtain rfl : row = header := Option.some.inj first
        simp [kept]
    have member : header ∈ table := List.mem_of_mem_head? first
    exact (found.header heading _ top).unique (writable header member).cells
  · have rows := found.rows
    rw [lines, List.forall₂_map_left_iff] at rows
    have both := (List.forall₂_and_left _ _).mpr ⟨fit, rows⟩
    exact both.imp fun row ctx sees => sees.2.seesCells sees.1

variable {h : Host} {ctx : Context} {fields desc : Fields} {name file text : String} {path element : Json}
  {s t : State}

/-- The command in some fields goes through the rows of a text in their order. It expands the element once for
each, with the number and the cells of the row bound, up to the first failure; and where the text is a table
written down, the rows that the element sees are those of the table. -/
structure GoesThrough (h : Host) (fields desc : Fields) (element : Json) (text : String) (ctx : Context)
    (s t : State) (delimiter : String) (names : List String) (contexts : List Context) : Prop where
  tabulates : Tabulates desc text ctx delimiter names contexts
  inTurn : ∀ out u, (interpolate h ctx (.obj fields)).outcome s = (out, u) ↔
    ∃ vs, InTurn h element contexts t vs u ∧ out = vs.map fun vs => some (.arr vs)
  length : ∀ u vs, InTurn h element contexts t (.ok vs) u → vs.length = (itemLines desc text).length
  table : ∀ (d : Char) (table : List (List String)), d ≠ '\n' → d ≠ '\r' →
    delimiter = String.singleton d → (∀ row ∈ table, Writable d row) →
    Written (table.map (rowText d)) text →
    (headed desc = true → ∀ header ∈ table.head?, names = header) ∧
      List.Forall₂ SeesCells (itemRows desc table) contexts

/-- The `$csv` command reads its file once and goes through the rows in it. -/
theorem interpolate_csv_rows (found : Fields.command? fields = some (name, .obj desc))
    (known : h.commands.lookup name = some .csv)
    (hf : Named.get? desc "file" = some (.str file))
    (he : Named.get? desc "element" = some element)
    (located : (expand h.engine ctx file).outcome s = (.ok path, t))
    (content : h.file path.display = .ok text) :
    ∃ delimiter names contexts, GoesThrough h fields desc element text ctx s
      (t.record (.read path.display)) delimiter names contexts := by
  obtain ⟨names, tabulates⟩ := tabulates_items desc text ctx
  refine ⟨_, names, _, tabulates, fun out u => ?_, fun u vs walk => ?_, ?_⟩
  · have read : (h.readFile path.display).outcome t =
        (.ok text, t.record (.read path.display)) := by
      rw [Host.readFile, outcome_bind, outcome_record]
      simp only [outcome_liftExcept, content]
    have items : (interpolate h ctx (.obj fields)).outcome s =
        (turnList h element (((RowLayout.ofFields desc).items text).map ctx.bindAll)).outcome
          (t.record (.read path.display)) := by
      rw [interpolate_csv found known hf he, outcome_bind, located]
      simp only [outcome_bind, read, turnList, List.map_map]
      rfl
    rw [items, turnList_iff]
  · rw [walk.length_eq rfl, tabulates.rows.length_eq]
  · rintro d table line back same writable written
    rw [same] at tabulates
    exact tabulates.table line back writable written

/-- A host with one file. -/
def people : Host := { recalling with file := fun _ => .ok "name,age\nann,7\r\n" }

/-- What each person in the file is told as. -/
def person : Json := .str "$\x7bcols\x7d"

def peopleDesc : Fields :=
  [("file", .str "people.csv"), ("firstLineHeader", .bool true), ("element", person)]

theorem interpolate_csv_people :
    ∃ contexts, List.Forall₂ SeesCells [(["ann", "7"], 2)] contexts ∧
      ∀ out u, (interpolate people {} (.obj [("$csv", .obj peopleDesc)])).outcome {} = (out, u) ↔
        ∃ vs, InTurn people person contexts { journal := [.read "people.csv"] } vs u ∧
          out = vs.map fun vs => some (.arr vs) := by
  have found : Fields.command? [("$csv", .obj peopleDesc)] = some ("$csv", .obj peopleDesc) := by rfl
  have known : people.commands.lookup "$csv" = some .csv := by rfl
  have located : (expand people.engine {} "people.csv").outcome {} =
      (.ok (.str "people.csv"), {}) := by rfl
  have content : people.file (Json.str "people.csv").display = .ok "name,age\nann,7\r\n" := by rfl
  obtain ⟨delimiter, names, contexts, through⟩ :=
    interpolate_csv_rows found known rfl rfl located content
  have comma : delimiter = String.singleton ',' := by
    cases through.tabulates.delimits with
    | given found => cases found
    | comma => rfl
  have writable : ∀ row ∈ [["name", "age"], ["ann", "7"]], Writable ',' row := by
    intro row listed
    obtain rfl | rfl : row = ["name", "age"] ∨ row = ["ann", "7"] := by simpa using listed
    · exact ⟨by decide, by decide, 'n', by decide, by decide⟩
    · exact ⟨by decide, by decide, 'a', by decide, by decide⟩
  have written : Written ([["name", "age"], ["ann", "7"]].map (rowText ','))
      "name,age\nann,7\r\n" := by
    have text : rowText ',' ["name", "age"] ++ "\n" ++ (rowText ',' ["ann", "7"] ++ "\r\n" ++ "") =
        "name,age\nann,7\r\n" := by decide
    exact text ▸ .more (.inl rfl) (.more (.inr rfl) .none)
  obtain ⟨-, rows⟩ := through.table ',' _ (by decide) (by decide) comma writable written
  exact ⟨contexts, rows, through.inTurn⟩

end RuleService
