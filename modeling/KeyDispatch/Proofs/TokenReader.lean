import KeyDispatch.Proofs.Token

/-!
# Readers of tokens

A reader takes tokens off the front of a list and says what they mean. `Reads r ts a` says that `r`
takes exactly `ts` for `a`, whatever follows them, so readers put together read the tokens put
together.
-/

namespace KeyDispatch

/-- Takes tokens off the front and says what they mean, if they mean anything. -/
abbrev Reader (α : Type) := StateT (List Token) Option α

/-- The number that a word in hexadecimal form stands for, if it fits in 32 bits. -/
def numeral? (word : String) : Option UInt32 :=
  match word.toList with
  | '0' :: 'x' :: digits =>
    if digits ≠ [] ∧ digits.all Text.isHexDigit then Text.readWord digits else none
  | _ => none

/-- A written number reads as itself. -/
theorem numeral?_hexText (width : Nat) (n : UInt32) :
    numeral? (Text.hexText width n.toNat) = some n := by
  have hne : Text.padZeros width (Text.hexDigits n.toNat) ≠ [] :=
    List.append_ne_nil_of_right_ne_nil _ (Text.hexDigits_ne_nil _)
  have hhex : (Text.padZeros width (Text.hexDigits n.toNat)).all Text.isHexDigit := by
    rw [List.all_eq_true]
    intro c hc
    exact Text.isHexDigit_of_isLowerHexDigit (Text.isLowerHexDigit_of_mem_padZeros hc)
  unfold numeral? Text.hexText
  rw [String.toList_ofList]
  simp only
  rw [if_pos ⟨hne, hhex⟩, Text.readWord_padZeros_hexDigits]

/-- A written number is not a word that is none. -/
theorem hexText_ne {word : String} (h : numeral? word = none) (width : Nat) (n : UInt32) :
    word ≠ Text.hexText width n.toNat := by
  rintro rfl
  rw [numeral?_hexText] at h
  cases h

namespace Reader

/-- Takes the given tokens. -/
def expect (ts : List Token) : Reader Unit := fun us => (ts.isPrefixOf? us).map ((), ·)

/-- Nothing is taken where another token stands first. -/
theorem expect_eq_none {t u : Token} (h : t ≠ u) (ts us : List Token) :
    expect (t :: ts) (u :: us) = none := by
  have hbeq : (t == u) = false := beq_eq_false_iff_ne.2 h
  rw [expect, List.isPrefixOf?, hbeq]
  rfl

/-- Takes a word. -/
def word : Reader String
  | .word w :: us => some (w, us)
  | _ => none

/-- Takes a word that can name something. -/
def name : Reader String := do
  let w ← word
  if Token.IsIdentifier w then pure w else failure

/-- Takes a number in hexadecimal form. -/
def number : Reader UInt32 := do
  let w ← word
  match numeral? w with
  | some n => pure n
  | none => failure

/-- Takes items until the tokens `stop`, which it takes as well. -/
def manyUntil {α : Type} (item : Reader α) (stop : List Token) (ts : List Token) :
    Option (List α × List Token) :=
  match expect stop ts with
  | some (_, rest) => some ([], rest)
  | none =>
    match item ts with
    | none => none
    | some (a, rest) =>
      if rest.length < ts.length then
        (manyUntil item stop rest).map fun found => (a :: found.1, found.2)
      else none
termination_by ts.length

/-- What a reader finds that takes all tokens. -/
def readAll? {α : Type} (r : Reader α) (ts : List Token) : Option α :=
  match r ts with
  | some (a, []) => some a
  | _ => none

end Reader

/-- The reader takes exactly the tokens `ts` for `a`, whatever follows them. -/
def Reads {α : Type} (r : Reader α) (ts : List Token) (a : α) : Prop :=
  ∀ rest, r (ts ++ rest) = some (a, rest)

namespace Reads

open Reader

variable {α β : Type} {r : Reader α} {ts us : List Token} {a : α} {b : β}

theorem pure (a : α) : Reads (Pure.pure a) [] a := fun _ => rfl

/-- One reader after the other reads the one's tokens and then the other's. -/
theorem bind {k : α → Reader β} (hr : Reads r ts a) (hk : Reads (k a) us b) :
    Reads (r >>= k) (ts ++ us) b := by
  intro rest
  have hfirst : r (ts ++ (us ++ rest)) = some (a, us ++ rest) := hr (us ++ rest)
  rw [List.append_assoc]
  show (r (ts ++ (us ++ rest))).bind (fun p => k p.1 p.2) = some (b, rest)
  rw [hfirst]
  exact hk rest

/-- The last reader's tokens are the last ones. -/
theorem map {f : α → β} (hr : Reads r ts a) : Reads (r >>= fun x => Pure.pure (f x)) ts (f a) := by
  have h := hr.bind (k := fun x => Pure.pure (f x)) (pure (f a))
  rwa [List.append_nil] at h

theorem expect (ts : List Token) : Reads (Reader.expect ts) ts () := by
  intro rest
  have h : ts.isPrefixOf? (ts ++ rest) = some rest :=
    List.isPrefixOf?_eq_some_iff_append_eq.2 rfl
  rw [Reader.expect, h]
  rfl

theorem word (w : String) : Reads Reader.word [.word w] w := fun _ => rfl

theorem name {w : String} (hw : Token.IsIdentifier w) : Reads Reader.name [.word w] w := by
  intro rest
  show (if Token.IsIdentifier w then Pure.pure w else failure : Reader String) rest = _
  rw [if_pos hw]
  rfl

theorem number {w : String} {n : UInt32} (hw : numeral? w = some n) :
    Reads Reader.number [.word w] n := by
  intro rest
  show (match numeral? w with | some n => Pure.pure n | none => failure : Reader UInt32) rest = _
  rw [hw]
  rfl

/-- Of two readers the first is the one to read. -/
theorem orElse_left {s : Reader α} (hr : Reads r ts a) : Reads (r <|> s) ts a := by
  intro rest
  show (r (ts ++ rest) <|> s (ts ++ rest)) = some (a, rest)
  rw [hr rest]
  rfl

/-- Where the first reader finds nothing the second one reads. -/
theorem orElse_right {s : Reader α} (hr : ∀ rest, r (ts ++ rest) = none) (hs : Reads s ts a) :
    Reads (r <|> s) ts a := by
  intro rest
  show (r (ts ++ rest) <|> s (ts ++ rest)) = some (a, rest)
  rw [hr rest]
  exact hs rest

/-- Items are read one by one, by induction on them. No item begins like the end, and each takes at
least one token. -/
theorem manyUntil {ι : Type} {stop : List Token} {items : List ι} {tokens : ι → List Token}
    {value : ι → α} (hitem : ∀ i ∈ items, Reads r (tokens i) (value i))
    (hne : ∀ i ∈ items, tokens i ≠ [])
    (hstop : ∀ i ∈ items, ∀ rest, Reader.expect stop (tokens i ++ rest) = none) :
    Reads (Reader.manyUntil r stop) (items.flatMap tokens ++ stop) (items.map value) := by
  intro rest
  induction items with
  | nil =>
    rw [Reader.manyUntil, List.flatMap_nil, List.nil_append, expect stop rest]
    rfl
  | cons i items ih =>
    have hi := List.mem_cons_self (a := i) (l := items)
    have hrest := ih (fun j hj => hitem j (List.mem_cons_of_mem i hj))
      (fun j hj => hne j (List.mem_cons_of_mem i hj))
      (fun j hj => hstop j (List.mem_cons_of_mem i hj))
    -- the item takes a token, so the reader goes on
    have hshorter : (items.flatMap tokens ++ (stop ++ rest)).length
        < (tokens i ++ (items.flatMap tokens ++ (stop ++ rest))).length := by
      have hlength : 0 < (tokens i).length := List.length_pos_iff.2 (hne i hi)
      simp only [List.length_append]
      omega
    rw [List.append_assoc] at hrest
    rw [List.flatMap_cons, List.append_assoc, List.append_assoc, Reader.manyUntil,
      hstop i hi, hitem i hi]
    simp only
    rw [if_pos hshorter, hrest]
    rfl

theorem readAll?_eq (h : Reads r ts a) : readAll? r ts = some a := by
  have := h []
  rw [List.append_nil] at this
  rw [readAll?, this]

end Reads

end KeyDispatch
