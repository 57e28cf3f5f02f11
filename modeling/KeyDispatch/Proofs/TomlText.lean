import KeyDispatch.Toml.Document
import Mathlib.Data.List.Nodup

/-!
# Texts that are read as values

A text is read as a value if the reader finds the value in it, whatever stands behind it that may
follow a value (`IsReadAs`). Strings in double quotes are read so, and so are arrays and tables in
braces if what is in them is. A `Written` value has a text that it is read from; a document that assigns
written values to different keys is read as the table of these members (`parse?_document`).
-/

namespace KeyDispatch.Toml

/-! ## Texts of values -/

/-- A character of a string in double quotes: it stands for itself, or its position is written. -/
def escape (c : Char) : List Char :=
  if isBasicChar c then [c] else '\\' :: 'U' :: Text.padZeros 8 (Text.hexDigits c.toNat)

/-- A string in double quotes. -/
def quote (s : String) : List Char := '"' :: (s.toList.flatMap escape ++ ['"'])

/-- Texts with a comma between each two. -/
def commaSeparated : List (List Char) → List Char
  | [] => []
  | t :: ts => t ++ ts.flatMap (',' :: ·)

/-- A key and its value. -/
def assignment (key : String) (value : List Char) : List Char := quote key ++ '=' :: value

/-- The text may follow a value. -/
def Delimited (rest : List Char) : Prop :=
  ∃ c cs, rest = c :: cs ∧ c ∈ [',', ']', '\x7d', '\n']

/-- The text begins like a value. -/
def Opens (text : List Char) : Prop := ∃ c cs, text = c :: cs ∧ c ∈ ['"', '[', '\x7b']

/-- The text is read as the value, whatever delimited text stands behind it. -/
structure IsReadAs (depth : Nat) (text : List Char) (v : Value) : Prop where
  opens : Opens text
  reads : ∀ {rest : List Char}, Delimited rest → valueWithin? depth (text ++ rest) = some (v, rest)

/-! ## Blanks -/

theorem Delimited.skipSpace {rest : List Char} (h : Delimited rest) :
    Toml.skipSpace rest = rest := by
  obtain ⟨c, cs, rfl, hc⟩ := h
  have hnot : ∀ c ∈ [',', ']', '\x7d', '\n'], isSpace c = false := by simp [isSpace]
  exact List.dropWhile_cons_of_neg (by simp [hnot c hc])

theorem Opens.append {text : List Char} (h : Opens text) (rest : List Char) :
    Opens (text ++ rest) := by
  obtain ⟨c, cs, rfl, hc⟩ := h
  exact ⟨c, cs ++ rest, rfl, hc⟩

theorem opens_commaSeparated {β : Type} (text : β → List Char) {first : β}
    (h : Opens (text first)) (others : List β) (rest : List Char) :
    Opens (commaSeparated ((first :: others).map text) ++ rest) :=
  (h.append _).append rest

theorem Opens.skipSpace {text : List Char} (h : Opens text) : Toml.skipSpace text = text := by
  obtain ⟨c, cs, rfl, hc⟩ := h
  have hnot : ∀ c ∈ ['"', '[', '\x7b'], isSpace c = false := by simp [isSpace]
  exact List.dropWhile_cons_of_neg (by simp [hnot c hc])

theorem skipTrivia_cons {c : Char} (cs : List Char) (h : c ∉ ['\n', '\r', '#', ' ', '\t']) :
    skipTrivia false (c :: cs) = some (c :: cs) := by
  simp only [List.mem_cons, List.not_mem_nil, or_false, not_or] at h
  obtain ⟨hline, hreturn, hhash, hblank, htab⟩ := h
  have hspace : isSpace c = false := by simp [isSpace, hblank, htab]
  unfold skipTrivia
  split <;> simp_all

theorem Opens.skipTrivia {text : List Char} (h : Opens text) :
    Toml.skipTrivia false text = some text := by
  obtain ⟨c, cs, rfl, hc⟩ := h
  have hnot : ∀ c ∈ ['"', '[', '\x7b'], c ∉ ['\n', '\r', '#', ' ', '\t'] := by simp
  exact skipTrivia_cons cs (hnot c hc)

theorem Opens.head?_ne {text : List Char} (h : Opens text) {closing : Char}
    (hclosing : closing ∉ ['"', '[', '\x7b']) : text.head? ≠ some closing := by
  obtain ⟨c, cs, rfl, hc⟩ := h
  intro heq
  rw [Option.some.inj heq] at hc
  exact hclosing hc

/-! ## Strings and keys -/

/-- The position of a character in eight digits is the position of this character. -/
theorem scalar?_position (c : Char) :
    scalar? (Text.padZeros 8 (Text.hexDigits c.toNat)) = some c := by
  have hvalue : Text.hexValue (Text.padZeros 8 (Text.hexDigits c.toNat)) = c.toNat := by
    rw [Text.hexValue_padZeros, Text.hexValue_hexDigits]
  have hdigits : (Text.padZeros 8 (Text.hexDigits c.toNat)).all Text.isHexDigit := by
    rw [List.all_eq_true]
    exact fun d hd => Text.isHexDigit_of_isLowerHexDigit (Text.isLowerHexDigit_of_mem_padZeros hd)
  have hvalid : c.toNat < 0xD800 ∨ 0xE000 ≤ c.toNat ∧ c.toNat < 0x110000 := by
    rcases c.valid with h | h
    · exact .inl h
    · exact .inr ⟨h.1, h.2⟩
  simp only [scalar?, hvalue, hdigits, Char.ofNat_toNat]
  simp [hvalid]

theorem basicRest_cons {c : Char} (h : isBasicChar c) (acc cs : List Char) :
    basicRest acc (c :: cs) = basicRest (c :: acc) cs := by
  obtain ⟨⟨-, hquote⟩, hslash⟩ := by
    simpa only [isBasicChar, Bool.and_eq_true, bne_iff_ne] using h
  conv_lhs => unfold basicRest
  split <;> simp_all

theorem basicRest_position {digits : List Char} (h : digits.length = 8) (acc cs : List Char) :
    basicRest acc ('\\' :: 'U' :: (digits ++ cs)) =
      (scalar? digits).bind fun ch => basicRest (ch :: acc) cs := by
  obtain _ | ⟨a, _ | ⟨b, _ | ⟨c, _ | ⟨d, _ | ⟨e, _ | ⟨f, _ | ⟨g, _ | ⟨i, _ | ⟨j, rest⟩⟩⟩⟩⟩⟩⟩⟩⟩ :=
    digits <;> simp only [List.length_cons, List.length_nil] at h
  case cons.cons.cons.cons.cons.cons.cons.cons.nil => rfl
  all_goals omega

/-- What is written for a character is read as this character. -/
theorem basicRest_escape (c : Char) (acc cs : List Char) :
    basicRest acc (escape c ++ cs) = basicRest (c :: acc) cs := by
  unfold escape
  split
  · next h => exact basicRest_cons h acc cs
  · have hlength : (Text.padZeros 8 (Text.hexDigits c.toNat)).length = 8 := by
      rw [Text.length_padZeros, Nat.max_eq_left]
      refine (Nat.length_toDigits_le_iff (by decide) (by decide)).2 ?_
      exact Nat.lt_of_lt_of_le c.val.toNat_lt (by decide)
    rw [List.cons_append, List.cons_append, basicRest_position hlength, scalar?_position]
    rfl

/-- A quoted string is read to its closing quote, by induction on its characters. -/
theorem basicRest_flatMap_escape (s acc rest : List Char) :
    basicRest acc (s.flatMap escape ++ '"' :: rest) = some (acc.reverse ++ s, rest) := by
  induction s generalizing acc with
  | nil => simp [basicRest]
  | cons c s ih =>
    rw [List.flatMap_cons, List.append_assoc, basicRest_escape, ih, List.reverse_cons,
      List.append_assoc, List.singleton_append]

theorem opens_quote (s : String) : Opens (quote s) := ⟨'"', _, rfl, by decide⟩

theorem keyPart?_quote (s : String) (rest : List Char) :
    keyPart? (quote s ++ rest) = some (s, rest) := by
  have hread := basicRest_flatMap_escape s.toList [] rest
  simp only [quote, List.cons_append, List.append_assoc, List.nil_append, keyPart?, hread]
  simp

theorem key?_quote (key : String) (rest : List Char) :
    key? (quote key ++ '=' :: rest) = some ([key], '=' :: rest) := by
  have hspace : skipSpace ('=' :: rest) = '=' :: rest := List.dropWhile_cons_of_neg (by decide)
  have hparts : ∀ n, keyParts? (n + 1) (quote key ++ '=' :: rest) = some ([key], '=' :: rest) := by
    intro n
    rw [keyParts?, ((opens_quote key).append _).skipSpace, keyPart?_quote]
    simp [hspace]
  exact hparts _

/-- Between quotes, a string is read as it is unless two more quotes stand behind the first. -/
theorem string?_of_ne {cs : List Char} (h : ∀ tail, cs ≠ '"' :: '"' :: tail) :
    string? ('"' :: cs) = string?.finish (basicRest [] cs) := by
  unfold string?
  split
  · next tail heq => exact absurd (List.cons.inj heq).2 (h tail)
  · next heq => rw [(List.cons.inj heq).2]
  all_goals simp_all

theorem string?_quote (s : String) {rest : List Char} (h : Delimited rest) :
    string? (quote s ++ rest) = some (s, rest) := by
  have hread := basicRest_flatMap_escape s.toList [] rest
  -- the first character does not close the string, and no third quote follows an empty one
  have hne : ∀ tail, s.toList.flatMap escape ++ '"' :: rest ≠ '"' :: '"' :: tail := by
    intro tail heq
    cases hs : s.toList with
    | nil =>
      obtain ⟨c, cs, rfl, hc⟩ := h
      simp only [hs, List.flatMap_nil, List.nil_append, List.cons.injEq, true_and] at heq
      rw [heq.1] at hc
      exact absurd hc (by decide)
    | cons c s =>
      rw [hs, List.flatMap_cons, escape] at heq
      split at heq <;> simp_all [isBasicChar]
  simp only [quote, List.cons_append, List.append_assoc, List.nil_append, string?_of_ne hne, hread]
  simp [string?.finish]

theorem IsReadAs.quote (depth : Nat) (s : String) :
    IsReadAs (depth + 1) (Toml.quote s) (.text s) where
  opens := opens_quote s
  reads {rest} h := by
    have hread := string?_quote s h
    simp only [Toml.quote, List.cons_append] at hread ⊢
    simp only [valueWithin?, scalarValue?, List.head?_cons, hread]
    rfl

/-- A key with a value behind it is read as these, up to what delimits the value. -/
theorem IsReadAs.member {depth : Nat} {text : List Char} {v : Value}
    (h : IsReadAs depth text v) (key : String) {rest : List Char} (hrest : Delimited rest) :
    Toml.member (valueWithin? depth) (assignment key text ++ rest) = some (([key], v), rest) := by
  unfold Toml.member assignment
  rw [List.append_assoc, List.cons_append, key?_quote]
  simp [(h.opens.append rest).skipSpace, h.reads hrest, hrest.skipSpace]

/-! ## Arrays and tables -/

section Items

variable {α β : Type} {item : Reader α} {skip : List Char → Option (List Char)} {trailing : Bool}
  {closing : Char}

theorem items?_cons (hclosing : closing ≠ ',') {cs next : List Char} {a : α}
    (hitem : item cs = some (a, ',' :: next)) (hskip : skip next = some next)
    (hhead : next.head? ≠ some closing) (n : Nat) :
    items? item skip trailing closing (n + 1) cs =
      (items? item skip trailing closing n next).bind fun p => some (a :: p.1, p.2) := by
  rw [items?, hitem]
  simp [hclosing.symm, hskip, hhead]

/-- Items with commas between them are read up to the closing character, by induction on the items
behind the first. -/
theorem items?_commaSeparated {text : β → List Char} {value : β → α} (hclosing : closing ≠ ',')
    (hapart : closing ∉ ['"', '[', '\x7b']) (hskip : ∀ {cs}, Opens cs → skip cs = some cs)
    (hopens : ∀ b, Opens (text b))
    (hitem : ∀ b, ∀ c ∈ [',', closing], ∀ rest,
      item (text b ++ c :: rest) = some (value b, c :: rest))
    (first : β) (others : List β) {n : Nat} (hn : others.length < n) (rest : List Char) :
    items? item skip trailing closing n
        (commaSeparated ((first :: others).map text) ++ closing :: rest) =
      some ((first :: others).map value, rest) := by
  induction others generalizing first n with
  | nil =>
    obtain ⟨n, rfl⟩ := Nat.exists_eq_succ_of_ne_zero (Nat.ne_of_gt hn)
    simp [items?, commaSeparated, hitem first closing (by simp)]
  | cons second others ih =>
    obtain ⟨n, rfl⟩ := Nat.exists_eq_succ_of_ne_zero (Nat.ne_of_gt (Nat.zero_lt_of_lt hn))
    have hnext := ih second (Nat.lt_of_succ_lt_succ hn)
    have hopen := opens_commaSeparated text (hopens second) others (closing :: rest)
    have hcomma : commaSeparated ((first :: second :: others).map text) ++ closing :: rest =
        text first ++ ',' :: (commaSeparated ((second :: others).map text) ++ closing :: rest) := by
      simp [commaSeparated]
    rw [hcomma, items?_cons hclosing (hitem first ',' (by simp) _) (hskip hopen)
      (hopen.head?_ne hapart), hnext]
    rfl

theorem length_lt_commaSeparated (text : β → List Char) (first : β) (others : List β) (c : Char)
    (cs : List Char) :
    others.length < (commaSeparated ((first :: others).map text) ++ c :: cs).length := by
  induction others with
  | nil =>
    rw [List.length_append]
    exact Nat.add_pos_right _ (Nat.succ_pos _)
  | cons second others ih =>
    simp only [commaSeparated, List.map_cons, List.flatMap_cons, List.length_append,
      List.length_cons] at ih ⊢
    omega

end Items

theorem alter_of_notMem {key : String} {f : Option Value → Option Value} {v : Value}
    {members : Members} (h : key ∉ members.map (·.1)) (hf : f none = some v) :
    alter key f members = some (members ++ [(key, v)]) := by
  induction members with
  | nil => simp [alter, hf]
  | cons m members ih =>
    simp only [List.map_cons, List.mem_cons, not_or] at h
    simp [alter, Ne.symm h.1, ih h.2]

/-- A key that is not set yet is set behind the others. -/
theorem assign_of_notMem {key : String} {members : Members} (h : key ∉ members.map (·.1))
    (v : Value) : assign v [key] members = some (members ++ [(key, v)]) :=
  alter_of_notMem h rfl

theorem notMem_of_nodup_append {before members : Members} {m : String × Value}
    (h : ((before ++ m :: members).map (·.1)).Nodup) : m.1 ∉ before.map (·.1) := by
  rw [List.map_append, List.map_cons] at h
  exact fun hm => List.disjoint_of_nodup_append h hm List.mem_cons_self

/-- Assignments to different keys put them behind what is there, by induction on the assignments. -/
theorem foldlM_assign (members before : Members)
    (h : ((before ++ members).map (·.1)).Nodup) :
    (members.map fun m => ([m.1], m.2)).foldlM (fun table m => assign m.2 m.1 table) before =
      some (before ++ members) := by
  induction members generalizing before with
  | nil => simp
  | cons m members ih =>
    have hnot := notMem_of_nodup_append h
    have hrest := ih (before ++ [m]) (by rwa [List.append_assoc, List.singleton_append])
    simp only [List.map_cons, List.foldlM_cons, assign_of_notMem hnot]
    simpa using hrest

/-- Assignments to different keys make the table of these members. -/
theorem assignAll_eq (members : Members) (h : (members.map (·.1)).Nodup) :
    assignAll (members.map fun m => ([m.1], m.2)) = some members :=
  foldlM_assign members [] h

theorem valueWithin?_array {depth : Nat} {cs : List Char} (h : Opens cs) :
    valueWithin? (depth + 2) ('[' :: cs) =
      (items? (arrayItem (valueWithin? (depth + 1))) (skipTrivia false) true ']' cs.length cs).bind
        fun p => some (.array p.1, p.2) := by
  have hhead : cs.head? ≠ some ']' := h.head?_ne (by decide)
  rw [valueWithin?]
  simp [h.skipTrivia, hhead]

theorem valueWithin?_table {depth : Nat} {cs : List Char} (h : Opens cs) :
    valueWithin? (depth + 2) ('\x7b' :: cs) =
      (items? (Toml.member (valueWithin? (depth + 1))) some false '\x7d' cs.length cs).bind
        fun p => (assignAll p.1).bind fun table => some (.table .inBraces table, p.2) := by
  have hhead : cs.head? ≠ some '\x7d' := h.head?_ne (by decide)
  rw [valueWithin?]
  simp [h.skipSpace, hhead]

/-! ## Written values -/

/-- A value with a text that it is read from. -/
structure Written (depth : Nat) where
  text : List Char
  value : Value
  reads : IsReadAs depth text value

namespace Written

variable {depth : Nat}

/-- A string. -/
def ofString (depth : Nat) (s : String) : Written (depth + 1) :=
  ⟨quote s, .text s, .quote depth s⟩

theorem arrayItem_text (w : Written depth) {c : Char} (hc : c ∈ [',', ']']) (rest : List Char) :
    arrayItem (valueWithin? depth) (w.text ++ c :: rest) = some (w.value, c :: rest) := by
  have hends : ∀ c ∈ [',', ']'], c ∈ [',', ']', '\x7d', '\n'] := by simp
  have hnot : ∀ c ∈ [',', ']'], c ∉ ['\n', '\r', '#', ' ', '\t'] := by simp
  unfold arrayItem
  simp [(w.reads.opens.append _).skipTrivia, w.reads.reads ⟨c, rest, rfl, hends c hc⟩,
    skipTrivia_cons rest (hnot c hc)]

theorem isReadAs_array (items : List (Written (depth + 1))) :
    IsReadAs (depth + 2) ('[' :: (commaSeparated (items.map (·.text)) ++ [']']))
      (.array (items.map (·.value))) where
  opens := ⟨'[', _, rfl, by decide⟩
  reads {rest} _ := by
    rw [List.cons_append, List.append_assoc, List.singleton_append]
    cases items with
    | nil =>
      have htrivia : skipTrivia false (']' :: rest) = some (']' :: rest) :=
        skipTrivia_cons rest (by decide)
      simp [valueWithin?, commaSeparated, htrivia]
    | cons first others =>
      rw [valueWithin?_array (opens_commaSeparated (·.text) first.reads.opens others _),
        items?_commaSeparated (by decide) (by decide) Opens.skipTrivia (fun w => w.reads.opens)
          (fun w _ hc => w.arrayItem_text hc) first others
          (length_lt_commaSeparated _ first others _ _)]
      rfl

/-- An array. -/
def array (items : List (Written (depth + 1))) : Written (depth + 2) :=
  ⟨_, _, isReadAs_array items⟩

/-- The text of a member of a table. -/
def assigned (f : String × Written depth) : List Char := assignment f.1 f.2.text

/-- A member of a table. -/
def member (f : String × Written depth) : String × Value := (f.1, f.2.value)

theorem opens_assigned (f : String × Written depth) : Opens (assigned f) :=
  (opens_quote f.1).append _

theorem map_fst_member (fields : List (String × Written depth)) :
    (fields.map member).map (·.1) = fields.map (·.1) := List.map_map

theorem isReadAs_table (fields : List (String × Written (depth + 1)))
    (h : (fields.map (·.1)).Nodup) :
    IsReadAs (depth + 2) ('\x7b' :: (commaSeparated (fields.map assigned) ++ ['\x7d']))
      (.table .inBraces (fields.map member)) where
  opens := ⟨'\x7b', _, rfl, by decide⟩
  reads {rest} _ := by
    rw [List.cons_append, List.append_assoc, List.singleton_append]
    cases fields with
    | nil =>
      have hspace : skipSpace ('\x7d' :: rest) = '\x7d' :: rest :=
        List.dropWhile_cons_of_neg (by decide)
      simp [valueWithin?, commaSeparated, hspace]
    | cons first others =>
      have hends : ∀ c ∈ [',', '\x7d'], c ∈ [',', ']', '\x7d', '\n'] := by simp
      have hassign := assignAll_eq ((first :: others).map member) (by rwa [map_fst_member])
      rw [valueWithin?_table (opens_commaSeparated assigned (opens_assigned first) others _),
        items?_commaSeparated (by decide) (by decide) (fun _ => rfl) opens_assigned
          (fun f c hc rest => f.2.reads.member f.1 ⟨c, rest, rfl, hends c hc⟩)
          first others (length_lt_commaSeparated _ first others _ _)]
      rw [List.map_map] at hassign
      exact congrArg (Option.bind · _) hassign

/-- A table in braces. -/
def table (fields : List (String × Written (depth + 1))) (h : (fields.map (·.1)).Nodup) :
    Written (depth + 2) :=
  ⟨_, _, isReadAs_table fields h⟩

end Written

/-! ## Documents -/

theorem lineEnd?_of_opens {cs : List Char} (h : Opens cs) : lineEnd? cs = none := by
  have hspace := h.skipSpace
  obtain ⟨c, cs, rfl, hc⟩ := h
  have hnot : ∀ c ∈ ['"', '[', '\x7b'], c ≠ '#' ∧ c ≠ '\n' ∧ c ≠ '\r' := by simp
  obtain ⟨hhash, hline, hreturn⟩ := hnot c hc
  simp [lineEnd?, hspace, hhash, hline, hreturn]

theorem assignment?_assigned (f : String × Written depthLimit) {root : Members}
    (h : f.1 ∉ root.map (·.1)) (rest : List Char) :
    assignment? ⟨root, []⟩ (Written.assigned f ++ '\n' :: rest) =
      some (⟨root ++ [Written.member f], []⟩, rest) := by
  have hmember : member value? (Written.assigned f ++ '\n' :: rest) =
      some (([f.1], f.2.value), '\n' :: rest) :=
    f.2.reads.member f.1 ⟨'\n', rest, rfl, by simp⟩
  have hend : lineEnd? ('\n' :: rest) = some rest := rfl
  unfold assignment?
  rw [hmember]
  simp [within, assign_of_notMem h, hend, Written.member]

/-- One line is read as one more member of the root table. -/
theorem readLines_line (f : String × Written depthLimit) {root : Members}
    (h : f.1 ∉ root.map (·.1)) (n : Nat) (rest : List Char) :
    readLines (n + 1) ⟨root, []⟩ (Written.assigned f ++ '\n' :: rest) =
      readLines n ⟨root ++ [Written.member f], []⟩ rest := by
  have hopens := (Written.opens_assigned f).append ('\n' :: rest)
  have hhead : (Written.assigned f ++ '\n' :: rest).head? = some '"' := rfl
  have hne : (Written.assigned f ++ '\n' :: rest).isEmpty = false := rfl
  rw [readLines, lineEnd?_of_opens hopens, hopens.skipSpace, hne]
  simp [hhead, assignment?_assigned f h rest]

/-- Assignments, each on a line of its own. -/
def lines (fields : List (String × Written depthLimit)) : List Char :=
  fields.flatMap fun f => Written.assigned f ++ ['\n']

theorem lines_cons (f : String × Written depthLimit) (fields : List (String × Written depthLimit)) :
    lines (f :: fields) = Written.assigned f ++ '\n' :: lines fields := by
  rw [lines, List.flatMap_cons, List.append_assoc, List.singleton_append, lines]

theorem length_le_lines (fields : List (String × Written depthLimit)) :
    fields.length ≤ (lines fields).length := by
  induction fields with
  | nil => exact Nat.le_refl 0
  | cons f fields ih =>
    rw [lines_cons, List.length_append, List.length_cons, List.length_cons]
    omega

/-- The lines are read one after the other, by induction on the assignments. -/
theorem readLines_lines (fields : List (String × Written depthLimit)) (root : Members)
    (h : ((root ++ fields.map Written.member).map (·.1)).Nodup) {n : Nat} (hn : fields.length < n) :
    readLines n ⟨root, []⟩ (lines fields) =
      some ⟨root ++ fields.map Written.member, []⟩ := by
  obtain ⟨n, rfl⟩ := Nat.exists_eq_succ_of_ne_zero (Nat.ne_of_gt (Nat.zero_lt_of_lt hn))
  induction fields generalizing root n with
  | nil => simp [readLines, lines]
  | cons f fields ih =>
    obtain ⟨n, rfl⟩ := Nat.exists_eq_succ_of_ne_zero
      (Nat.ne_of_gt (Nat.zero_lt_of_lt (Nat.lt_of_succ_lt_succ hn)))
    have hrest := ih (root ++ [Written.member f])
      (by rwa [List.append_assoc, List.singleton_append]) n (Nat.lt_of_succ_lt_succ hn)
    rw [lines_cons, readLines_line f (notMem_of_nodup_append h), hrest, List.append_assoc,
      List.singleton_append, List.map_cons]

/-- The document of assignments on lines of their own. -/
def document (fields : List (String × Written depthLimit)) : String := String.ofList (lines fields)

/-- A document of assignments to different keys is read as the table of these members. -/
theorem parse?_document (fields : List (String × Written depthLimit))
    (h : (fields.map (·.1)).Nodup) :
    parse? (document fields) = some (fields.map Written.member) := by
  have hmark : dropMark (lines fields) = lines fields := by
    cases fields with
    | nil => rfl
    | cons f fields => rfl
  have hread := readLines_lines fields [] (by rwa [List.nil_append, Written.map_fst_member])
    (Nat.lt_succ_of_le (length_le_lines fields))
  unfold parse?
  rw [document, String.toList_ofList, hmark]
  exact congrArg (Option.map (·.root)) hread

end KeyDispatch.Toml
