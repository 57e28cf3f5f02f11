import KeyDispatch.Config
import KeyDispatch.Proofs.TomlText
import Mathlib.Data.Option.Basic

/-!
# What a configuration is read from

A configuration is a record of three records. A value gives the fields of a record by name, and
then names no others, or it gives them in order (`Gives`). Whether a value states a path, a format,
a list or a record is a relation of its own, with no mention of how it is read (`StatedBy`). The
readers accept just what states something, and answer what it states, so that a document is read as
a configuration exactly if its root table states it (`ofToml?_eq_some_iff`). No configuration is out
of reach: each has a document that is read as it (`ofToml?_document`).
-/

namespace KeyDispatch

open Toml (Members TableOrigin Value Written)

namespace Config

/-! ## Fields of a record -/

/-- The value of the first member with a name. -/
def valueOf? (members : Members) (name : String) : Option Value :=
  (members.find? fun m => m.1 == name).map (·.2)

/-- What a value gives for the fields of a record: a table gives them by name and has no other
members; an array gives them in order, and only if the record allows it may some be missing. -/
inductive Gives (names : List String) (mayBeShort : Bool) : Value → List (Option Value) → Prop
  | byName {origin : TableOrigin} {members : Members} (hknown : ∀ m ∈ members, m.1 ∈ names) :
    Gives names mayBeShort (.table origin members) (names.map (valueOf? members))
  | inOrder {items : List Value} (hall : mayBeShort = false → names.length ≤ items.length) :
    Gives names mayBeShort (.array items) ((List.range names.length).map fun i => items[i]?)
  | byElements {elements : List Members}
    (hall : mayBeShort = false → names.length ≤ elements.length) :
    Gives names mayBeShort (.tables elements)
      ((List.range names.length).map fun i => (elements[i]?).map (.table .header))

section Fields

variable {names : List String} {mayBeShort : Bool} {fields : List (Option Value)}

theorem ofMembers_eq_some_iff {members : Members} :
    fields?.ofMembers names members = some fields ↔
      (∀ m ∈ members, m.1 ∈ names) ∧ names.map (valueOf? members) = fields := by
  unfold fields?.ofMembers
  rw [Option.ite_none_right_eq_some, Option.some.injEq, List.all_eq_true]
  simp only [List.contains_iff_mem]
  rfl

theorem ofItems_eq_some_iff {items : List Value} :
    fields?.ofItems names mayBeShort items = some fields ↔
      (mayBeShort = false → names.length ≤ items.length) ∧
        ((List.range names.length).map fun i => items[i]?) = fields := by
  unfold fields?.ofItems
  rw [Option.ite_none_left_eq_some, Option.some.injEq]
  simp

/-- The fields of a record are those that the value gives. -/
theorem fields?_eq_some_iff {v : Value} :
    fields? names mayBeShort v = some fields ↔ Gives names mayBeShort v fields := by
  constructor
  · intro h
    unfold fields? at h
    split at h
    · obtain ⟨hknown, rfl⟩ := ofMembers_eq_some_iff.1 h
      exact .byName hknown
    · obtain ⟨hall, rfl⟩ := ofItems_eq_some_iff.1 h
      exact .inOrder hall
    · obtain ⟨hall, rfl⟩ := ofItems_eq_some_iff.1 h
      simp only [List.getElem?_map]
      exact .byElements (by simpa using hall)
    · cases h
  · rintro (hknown | hall | hall)
    · exact ofMembers_eq_some_iff.2 ⟨hknown, rfl⟩
    · exact ofItems_eq_some_iff.2 ⟨hall, rfl⟩
    · refine ofItems_eq_some_iff.2 ⟨by simpa using hall, ?_⟩
      simp only [List.getElem?_map]

end Fields

/-! ## Values of fields -/

/-- A field that stands for `missing` where the value does not give it, and else for what the value
states. -/
inductive GivenOr {α : Type} (missing : α) (states : Value → α → Prop) : Option Value → α → Prop
  | absent : GivenOr missing states none missing
  | given {v : Value} {a : α} (h : states v a) : GivenOr missing states (some v) a

section Readers

variable {α β : Type}

theorem optional_eq_some_iff {read : Value → Option α} {states : Value → α → Prop}
    (h : ∀ v a, read v = some a ↔ states v a) {field : Option Value} {a : Option α} :
    optional read field = some a ↔ Option.Rel states field a := by
  constructor
  · intro hread
    cases field with
    | none =>
      obtain rfl := Option.some.inj hread
      exact .none
    | some v =>
      obtain ⟨b, hb, rfl⟩ := Option.map_eq_some_iff.1 hread
      exact .some ((h v b).1 hb)
  · rintro (hv | _)
    · exact Option.map_eq_some_iff.2 ⟨_, (h _ _).2 hv, rfl⟩
    · rfl

theorem withDefault_eq_some_iff {read : Value → Option α} {states : Value → α → Prop} {missing : α}
    (h : ∀ v a, read v = some a ↔ states v a) {field : Option Value} {a : α} :
    withDefault missing read field = some a ↔ GivenOr missing states field a := by
  constructor
  · intro hread
    cases field with
    | none =>
      obtain rfl := Option.some.inj hread
      exact .absent
    | some v => exact .given ((h v a).1 hread)
  · rintro (_ | hv)
    · rfl
    · exact (h _ _).2 hv

/-- If an item is read just where it was written, a list is, by induction on the list. -/
theorem mapM_eq_some_iff {read : α → Option β} {write : β → α}
    (h : ∀ v a, read v = some a ↔ v = write a) {items : List α} {as : List β} :
    items.mapM read = some as ↔ items = as.map write := by
  induction items generalizing as with
  | nil => cases as <;> simp
  | cons v items ih =>
    rw [List.mapM_cons]
    cases as with
    | nil => simp [Option.bind_eq_some_iff]
    | cons a as => simp [Option.bind_eq_some_iff, h, ih]

end Readers

theorem string?_eq_some_iff {v : Value} {s : String} : string? v = some s ↔ v = .text s := by
  cases v <;> simp [string?]

theorem strings?_eq_some_iff {v : Value} {l : List String} :
    strings? v = some l ↔ v = .array (l.map .text) := by
  cases v with
  | array items =>
    rw [Value.array.injEq]
    exact mapM_eq_some_iff fun _ _ => string?_eq_some_iff
  | _ => simp [strings?]

/-- The value states a map from names to strings: a table of strings, of which the last one of a name
counts, or a date, by its text under the name that is reserved for dates. -/
inductive NamesStated : Value → SortedMap String String → Prop
  | table {origin : TableOrigin} (entries : List (String × String)) :
    NamesStated (.table origin (entries.map fun e => (e.1, .text e.2))) (.ofList entries)
  | datetime {written : String} :
    NamesStated (.datetime written) (.ofList [("$__toml_private_datetime", written)])

theorem names?_eq_some_iff {v : Value} {m : SortedMap String String} :
    names? v = some m ↔ NamesStated v m := by
  have hentry : ∀ (member : String × Value) (e : String × String),
      ((string? member.2).map fun s => (member.1, s)) = some e ↔ member = (e.1, .text e.2) := by
    rintro ⟨name, value⟩ ⟨name', s⟩
    rw [Option.map_eq_some_iff]
    simp only [string?_eq_some_iff, Prod.mk.injEq]
    constructor
    · rintro ⟨_, rfl, rfl, rfl⟩
      exact ⟨rfl, rfl⟩
    · rintro ⟨rfl, rfl⟩
      exact ⟨s, rfl, rfl, rfl⟩
  constructor
  · intro h
    unfold names? at h
    split at h
    · obtain ⟨entries, hentries, rfl⟩ := Option.map_eq_some_iff.1 h
      obtain rfl := (mapM_eq_some_iff hentry).1 hentries
      exact .table entries
    · obtain rfl := Option.some.inj h
      exact .datetime
    · cases h
  · rintro (entries | _)
    · exact Option.map_eq_some_iff.2 ⟨entries, (mapM_eq_some_iff hentry).2 rfl, rfl⟩
    · rfl

/-- The value states a format: by its name, or by a table that holds nothing under its name. -/
inductive FormatStated : Value → OutputFormat → Prop
  | name (f : OutputFormat) : FormatStated (.text f.name) f
  | variant {origin : TableOrigin} {v : Value} (f : OutputFormat) (h : isVoid v = true) :
    FormatStated (.table origin [(f.name, v)]) f

theorem format?_eq_some_iff {v : Value} {f : OutputFormat} :
    format? v = some f ↔ FormatStated v f := by
  constructor
  · intro h
    unfold format? at h
    split at h
    · obtain rfl := OutputFormat.ofName?_eq_some_iff.1 h
      exact .name f
    · obtain ⟨hvoid, hname⟩ := Option.ite_none_right_eq_some.1 h
      obtain rfl := OutputFormat.ofName?_eq_some_iff.1 hname
      exact .variant f hvoid
    · cases h
  · rintro (_ | ⟨_, hvoid⟩)
    · exact OutputFormat.ofName?_eq_some_iff.2 rfl
    · exact Option.ite_none_right_eq_some.2 ⟨hvoid, OutputFormat.ofName?_eq_some_iff.2 rfl⟩

/-! ## Records -/

section Record

variable {α β γ δ : Type} {names : List String} {mayBeShort : Bool}
  {first : Option Value → Option α} {second : Option Value → Option β}
  {third : Option Value → Option γ} {make : α → β → γ → δ} {v : Value} {d : δ}

theorem record?_eq_some_iff_exists :
    record? names mayBeShort first second third make v = some d ↔
      ∃ x y z, Gives names mayBeShort v [x, y, z] ∧
        ∃ a b c, first x = some a ∧ second y = some b ∧ third z = some c ∧ make a b c = d := by
  constructor
  · intro h
    obtain ⟨fields, hfields, h⟩ := Option.bind_eq_some_iff.1 h
    split at h
    · next x y z =>
      obtain ⟨a, ha, h⟩ := Option.bind_eq_some_iff.1 h
      obtain ⟨b, hb, h⟩ := Option.bind_eq_some_iff.1 h
      obtain ⟨c, hc, h⟩ := Option.bind_eq_some_iff.1 h
      exact ⟨x, y, z, fields?_eq_some_iff.1 hfields, a, b, c, ha, hb, hc, Option.some.inj h⟩
    · cases h
  · rintro ⟨x, y, z, hgives, a, b, c, ha, hb, hc, rfl⟩
    refine Option.bind_eq_some_iff.2 ⟨_, fields?_eq_some_iff.2 hgives, ?_⟩
    dsimp only
    rw [ha, hb, hc]
    rfl

/-- A record is read exactly if the value gives its fields and each one states what the record has
there. -/
theorem record?_eq_some_iff {states : Option Value → α → Prop} {states' : Option Value → β → Prop}
    {states'' : Option Value → γ → Prop} (h : ∀ x a, first x = some a ↔ states x a)
    (h' : ∀ y b, second y = some b ↔ states' y b) (h'' : ∀ z c, third z = some c ↔ states'' z c) :
    record? names mayBeShort first second third make v = some d ↔
      ∃ a b c, make a b c = d ∧ ∃ x y z, Gives names mayBeShort v [x, y, z] ∧
        states x a ∧ states' y b ∧ states'' z c := by
  rw [record?_eq_some_iff_exists]
  simp only [h, h', h'']
  constructor
  · rintro ⟨x, y, z, hgives, a, b, c, ha, hb, hc, hmake⟩
    exact ⟨a, b, c, hmake, x, y, z, hgives, ha, hb, hc⟩
  · rintro ⟨a, b, c, hmake, x, y, z, hgives, ha, hb, hc⟩
    exact ⟨x, y, z, hgives, a, b, c, ha, hb, hc, hmake⟩

end Record

end Config

open Config (Gives GivenOr)

/-- The value states the paths of the headers. -/
def InputPaths.StatedBy (p : InputPaths) (v : Value) : Prop :=
  ∃ keysymdef vendor toolkit, Gives ["keysymdef", "vendor", "toolkit"] false v
      [keysymdef, vendor, toolkit] ∧
    Option.Rel (fun v s => v = .text s) keysymdef p.keysymdef ∧
    Option.Rel (fun v s => v = .text s) vendor p.vendor ∧
    Option.Rel (fun v s => v = .text s) toolkit p.toolkit

/-- The value states the properties of the generated file. -/
def OutputChoice.StatedBy (o : OutputChoice) (v : Value) : Prop :=
  ∃ path format functionName, Gives ["path", "format", "function"] false v
      [path, format, functionName] ∧
    Option.Rel (fun v s => v = .text s) path o.path ∧
    Option.Rel Config.FormatStated format o.format ∧
    Option.Rel (fun v s => v = .text s) functionName o.functionName

/-- The value states override entries. -/
def Extensions.StatedBy (e : Extensions) (v : Value) : Prop :=
  ∃ alternativeNames keypad ignored, Gives ["alternative_names", "keypad", "ignore"] true v
      [alternativeNames, keypad, ignored] ∧
    GivenOr .empty Config.NamesStated alternativeNames e.alternativeNames ∧
    GivenOr .empty Config.NamesStated keypad e.keypad ∧
    GivenOr [] (fun v l => v = .array (l.map .text)) ignored e.ignored

/-- The root table of a document states the configuration: it has no members but the three records,
and a record that is missing sets nothing. -/
structure Config.StatedBy (c : Config) (root : Members) : Prop where
  known : ∀ m ∈ root, m.1 ∈ ["inputs", "output", "overrides"]
  inputs : GivenOr .none (fun v p => p.StatedBy v) (valueOf? root "inputs") c.inputs
  output : GivenOr ⟨none, none, none⟩ (fun v o => o.StatedBy v) (valueOf? root "output") c.output
  extensions : GivenOr .none (fun v e => e.StatedBy v) (valueOf? root "overrides") c.extensions

namespace Config

theorem optional_string?_eq_some_iff (field : Option Value) (s : Option String) :
    optional string? field = some s ↔ Option.Rel (fun v s => v = .text s) field s :=
  optional_eq_some_iff fun _ _ => string?_eq_some_iff

theorem withDefault_names?_eq_some_iff (field : Option Value) (m : SortedMap String String) :
    withDefault .empty names? field = some m ↔ GivenOr .empty NamesStated field m :=
  withDefault_eq_some_iff fun _ _ => names?_eq_some_iff

theorem inputs?_eq_some_iff {v : Value} {p : InputPaths} : inputs? v = some p ↔ p.StatedBy v := by
  refine (record?_eq_some_iff optional_string?_eq_some_iff optional_string?_eq_some_iff
    optional_string?_eq_some_iff).trans ⟨?_, fun h => ⟨_, _, _, rfl, h⟩⟩
  rintro ⟨_, _, _, rfl, h⟩
  exact h

theorem output?_eq_some_iff {v : Value} {o : OutputChoice} :
    output? v = some o ↔ o.StatedBy v := by
  refine (record?_eq_some_iff optional_string?_eq_some_iff
    (fun _ _ => optional_eq_some_iff fun _ _ => format?_eq_some_iff)
    optional_string?_eq_some_iff).trans ⟨?_, fun h => ⟨_, _, _, rfl, h⟩⟩
  rintro ⟨_, _, _, rfl, h⟩
  exact h

theorem extensions?_eq_some_iff {v : Value} {e : Extensions} :
    extensions? v = some e ↔ e.StatedBy v := by
  refine (record?_eq_some_iff withDefault_names?_eq_some_iff withDefault_names?_eq_some_iff
    (fun _ _ => withDefault_eq_some_iff fun _ _ => strings?_eq_some_iff)).trans
      ⟨?_, fun h => ⟨_, _, _, rfl, h⟩⟩
  rintro ⟨_, _, _, rfl, h⟩
  exact h

theorem ofMembers?_eq_some_iff {root : Members} {c : Config} :
    ofMembers? root = some c ↔ c.StatedBy root := by
  refine (record?_eq_some_iff (fun _ _ => withDefault_eq_some_iff fun _ _ => inputs?_eq_some_iff)
    (fun _ _ => withDefault_eq_some_iff fun _ _ => output?_eq_some_iff)
    (fun _ _ => withDefault_eq_some_iff fun _ _ => extensions?_eq_some_iff)).trans ⟨?_, ?_⟩
  · rintro ⟨_, _, _, rfl, _, _, _, hgives, hinputs, houtput, hextensions⟩
    obtain ⟨hknown, hfields⟩ := ofMembers_eq_some_iff.1 (fields?_eq_some_iff.2 hgives)
    simp only [List.map_cons, List.map_nil, List.cons.injEq, and_true] at hfields
    obtain ⟨rfl, rfl, rfl⟩ := hfields
    exact ⟨hknown, hinputs, houtput, hextensions⟩
  · rintro ⟨hknown, hinputs, houtput, hextensions⟩
    exact ⟨_, _, _, rfl, _, _, _, .byName hknown, hinputs, houtput, hextensions⟩

/-- A document is read as a configuration exactly if its root table states the configuration. -/
theorem ofToml?_eq_some_iff {text : String} {c : Config} :
    ofToml? text = some c ↔ ∃ root, Toml.parse? text = some root ∧ c.StatedBy root := by
  rw [ofToml?, Option.bind_eq_some_iff]
  simp only [ofMembers?_eq_some_iff]

example : ofToml? ("[output]\nformat = \"cpp-header\"\n[overrides]\n" ++
    "keypad = \x7b Insert = \"KP_Insert\" \x7d\nignore = [\"Cancel\"]\n") =
    some ⟨.none, ⟨none, some .cppHeader, none⟩,
      ⟨.empty, .ofList [("Insert", "KP_Insert")], ["Cancel"]⟩⟩ := by
  rfl

/-! ## Documents of configurations -/

section Present

variable {depth : Nat}

/-- The fields that have a value. -/
def present (fields : List (String × Option (Written depth))) : List (String × Written depth) :=
  fields.filterMap fun f => f.2.map (f.1, ·)

theorem map_fst_present_sublist (fields : List (String × Option (Written depth))) :
    ((present fields).map (·.1)).Sublist (fields.map (·.1)) := by
  induction fields with
  | nil => exact .slnil
  | cons f fields ih =>
    obtain ⟨name, _ | w⟩ := f
    · exact .cons _ ih
    · exact .cons_cons _ ih

theorem valueOf?_cons (m : String × Value) (members : Members) (name : String) :
    valueOf? (m :: members) name = if m.1 = name then some m.2 else valueOf? members name := by
  unfold valueOf?
  split
  · next h => rw [List.find?_cons_of_pos (by simp [h]), Option.map_some]
  · next h => rw [List.find?_cons_of_neg (by simp [h])]

theorem valueOf?_eq_none {members : Members} {name : String} (h : name ∉ members.map (·.1)) :
    valueOf? members name = none := by
  unfold valueOf?
  rw [Option.map_eq_none_iff, List.find?_eq_none]
  intro m hm heq
  exact h (List.mem_map.2 ⟨m, hm, eq_of_beq heq⟩)

/-- A record of different fields gives their values, by induction on the fields. -/
theorem map_valueOf?_present (fields : List (String × Option (Written depth)))
    (h : (fields.map (·.1)).Nodup) :
    (fields.map (·.1)).map (valueOf? ((present fields).map Written.member)) =
      fields.map fun f => f.2.map (·.value) := by
  induction fields with
  | nil => rfl
  | cons f fields ih =>
    obtain ⟨name, o⟩ := f
    obtain ⟨hnot, hrest⟩ := List.nodup_cons.1 h
    cases o with
    | none =>
      have habsent : valueOf? ((present fields).map Written.member) name = none := by
        refine valueOf?_eq_none fun hm => hnot ?_
        rw [Written.map_fst_member] at hm
        exact (map_fst_present_sublist fields).subset hm
      exact List.cons_eq_cons.2 ⟨habsent, ih hrest⟩
    | some w =>
      have hhead : valueOf? ((present ((name, some w) :: fields)).map Written.member) name =
          some w.value := (valueOf?_cons _ _ _).trans (if_pos rfl)
      refine List.cons_eq_cons.2 ⟨hhead, ?_⟩
      rw [← ih hrest]
      refine List.map_congr_left fun other hother => ?_
      have hne : name ≠ other := fun heq => hnot (heq ▸ hother)
      exact (valueOf?_cons _ _ _).trans (if_neg hne)

/-- A table in braces with the fields that have a value. -/
def writtenRecord (fields : List (String × Option (Written (depth + 1))))
    (h : (fields.map (·.1)).Nodup) : Written (depth + 2) :=
  .table (present fields) (h.sublist (map_fst_present_sublist fields))

theorem gives_writtenRecord (fields : List (String × Option (Written (depth + 1))))
    (h : (fields.map (·.1)).Nodup) (mayBeShort : Bool) :
    Gives (fields.map (·.1)) mayBeShort (writtenRecord fields h).value
      (fields.map fun f => f.2.map (·.value)) := by
  rw [← map_valueOf?_present fields h]
  refine .byName fun m hm => ?_
  obtain ⟨f, hf, rfl⟩ := List.mem_map.1 hm
  exact (map_fst_present_sublist fields).subset (List.mem_map.2 ⟨f, hf, rfl⟩)

/-- A string that may be missing. -/
def writtenString (s : Option String) : Option (Written (depth + 1)) := s.map (.ofString depth)

theorem rel_writtenString (s : Option String) :
    Option.Rel (fun v s => v = .text s)
      ((writtenString s : Option (Written (depth + 1))).map (·.value)) s := by
  cases s with
  | none => exact .none
  | some s => exact .some rfl

/-- A map from names to strings. -/
def writtenNames (m : SortedMap String String) : Written (depth + 2) :=
  .table (m.toList.map fun e => (e.1, .ofString depth e.2)) (by
    rw [List.map_map]
    exact List.pairwise_map.2 m.keys_ne)

theorem namesStated_writtenNames (m : SortedMap String String) :
    NamesStated (writtenNames m : Written (depth + 2)).value m := by
  have hstated : NamesStated (.table .inBraces (m.toList.map fun e => (e.1, .text e.2)))
      (.ofList m.toList) := .table m.toList
  rw [SortedMap.ofList_toList] at hstated
  have hmembers : (m.toList.map fun e => (e.1, Written.ofString depth e.2)).map Written.member =
      m.toList.map fun e => (e.1, Value.text e.2) := List.map_map
  exact (congrArg (fun ms => NamesStated (.table .inBraces ms) m) hmembers).mpr hstated

end Present

end Config

section Documents

variable {depth : Nat}

/-- The fields that the paths of the headers are written to. -/
def InputPaths.fields (p : InputPaths) : List (String × Option (Written (depth + 1))) :=
  [("keysymdef", Config.writtenString p.keysymdef), ("vendor", Config.writtenString p.vendor),
    ("toolkit", Config.writtenString p.toolkit)]

/-- The paths of the headers, each under its name. -/
def InputPaths.written (p : InputPaths) : Written (depth + 2) :=
  Config.writtenRecord p.fields (by simp [fields])

theorem InputPaths.statedBy_written (p : InputPaths) :
    p.StatedBy (p.written : Written (depth + 2)).value :=
  ⟨_, _, _, Config.gives_writtenRecord p.fields _ _, Config.rel_writtenString _,
    Config.rel_writtenString _, Config.rel_writtenString _⟩

/-- The fields that the properties of the generated file are written to. -/
def OutputChoice.fields (o : OutputChoice) : List (String × Option (Written (depth + 1))) :=
  [("path", Config.writtenString o.path),
    ("format", Config.writtenString (o.format.map (·.name))),
    ("function", Config.writtenString o.functionName)]

/-- The properties of the generated file, each under its name. -/
def OutputChoice.written (o : OutputChoice) : Written (depth + 2) :=
  Config.writtenRecord o.fields (by simp [fields])

theorem OutputChoice.statedBy_written (o : OutputChoice) :
    o.StatedBy (o.written : Written (depth + 2)).value := by
  refine ⟨_, _, _, Config.gives_writtenRecord o.fields _ _, Config.rel_writtenString _, ?_,
    Config.rel_writtenString _⟩
  cases o.format with
  | none => exact .none
  | some f => exact .some (.name f)

/-- The fields that override entries are written to. -/
def Extensions.fields (e : Extensions) : List (String × Option (Written (depth + 2))) :=
  [("alternative_names", some (Config.writtenNames e.alternativeNames)),
    ("keypad", some (Config.writtenNames e.keypad)),
    ("ignore", some (.array (e.ignored.map (.ofString depth))))]

/-- Override entries, each kind under its name. -/
def Extensions.written (e : Extensions) : Written (depth + 3) :=
  Config.writtenRecord e.fields (by simp [fields])

theorem Extensions.statedBy_written (e : Extensions) :
    e.StatedBy (e.written : Written (depth + 3)).value := by
  refine ⟨_, _, _, Config.gives_writtenRecord e.fields _ _,
    .given (Config.namesStated_writtenNames e.alternativeNames),
    .given (Config.namesStated_writtenNames e.keypad), .given ?_⟩
  exact congrArg Value.array List.map_map

namespace Config

/-- The document that writes a configuration. -/
def document (c : Config) : String :=
  Toml.document [("inputs", c.inputs.written), ("output", c.output.written),
    ("overrides", c.extensions.written)]

/-- Every configuration has a document that is read as it. -/
theorem ofToml?_document (c : Config) : ofToml? c.document = some c := by
  refine ofToml?_eq_some_iff.2 ⟨_, Toml.parse?_document _ (by simp), ?_⟩
  exact
    { known := by simp [Written.member]
      inputs := .given c.inputs.statedBy_written
      output := .given c.output.statedBy_written
      extensions := .given c.extensions.statedBy_written }

end Config

end Documents

end KeyDispatch
