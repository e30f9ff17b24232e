import Mathlib.Data.Int.Notation
import Mathlib.Data.List.Basic
import Mathlib.Tactic.Push

/-!
# Texts

White space in texts, decimal numbers, bytes read as UTF-8 where they may not be, where a separator
splits a text, and where a pattern can occur in a text that is put together from parts.
-/

namespace Text

/-- What holds of the characters of a list is decided along the list. -/
instance decidableBall (l : List Char) (p : Char → Prop) [DecidablePred p] :
    Decidable (∀ c ∈ l, p c) := List.decidableBAll p l

instance decidableBex (l : List Char) (p : Char → Prop) [DecidablePred p] :
    Decidable (∃ c ∈ l, p c) := List.decidableBEx p l

/-! ## White space -/

/-- `char::is_whitespace`. -/
def isWhitespace (c : Char) : Bool :=
  (0x09 ≤ c.toNat && c.toNat ≤ 0x0D) || c.toNat = 0x20 || c.toNat = 0x85 || c.toNat = 0xA0 ||
    c.toNat = 0x1680 || (0x2000 ≤ c.toNat && c.toNat ≤ 0x200A) || c.toNat = 0x2028 ||
    c.toNat = 0x2029 || c.toNat = 0x202F || c.toNat = 0x205F || c.toNat = 0x3000

/-- `str::split_whitespace`. -/
def splitWhitespace (s : String) : List String :=
  ((s.toList.splitOnP isWhitespace).filter (· ≠ [])).map String.ofList

/-- `str::trim`. -/
def trim (s : String) : String :=
  String.ofList ((s.toList.dropWhile isWhitespace).reverse.dropWhile isWhitespace).reverse

/-- A text without white space is trimmed. -/
theorem trim_eq_self {s : String} (h : ∀ c ∈ s.toList, isWhitespace c = false) : trim s = s := by
  have hkeep : ∀ l : List Char, (∀ c ∈ l, isWhitespace c = false) →
      l.dropWhile isWhitespace = l := by
    intro l hl
    rcases l with _ | ⟨c, l⟩
    · rfl
    · exact List.dropWhile_cons_of_neg (by simp [hl c List.mem_cons_self])
  unfold trim
  rw [hkeep _ h, hkeep _ fun c hc => h c (List.mem_reverse.mp hc), List.reverse_reverse,
    String.ofList_toList]

/-- The words between the elements that separate. -/
def wordsOf (l : List Char) : List (List Char) := (l.splitOnP isWhitespace).filter (· ≠ [])

/-- White space at the end separates nothing. -/
theorem wordsOf_concat {l : List Char} {c : Char} (hc : isWhitespace c = true) :
    wordsOf (l ++ [c]) = wordsOf l := by
  unfold wordsOf
  rw [List.splitOnP_append_cons _ _ hc, List.splitOnP_nil, List.filter_append]
  simp

theorem wordsOf_cons {l : List Char} {c : Char} (hc : isWhitespace c = true) :
    wordsOf (c :: l) = wordsOf l := by
  unfold wordsOf
  rw [← List.nil_append (c :: l), List.splitOnP_append_cons _ _ hc, List.splitOnP_nil,
    List.filter_append]
  simp

theorem wordsOf_dropWhile (l : List Char) : wordsOf (l.dropWhile isWhitespace) = wordsOf l := by
  induction l with
  | nil => rfl
  | cons c l ih =>
    by_cases hc : isWhitespace c = true
    · rw [List.dropWhile_cons_of_pos hc, ih, wordsOf_cons hc]
    · rw [List.dropWhile_cons_of_neg hc]

theorem wordsOf_reverse_dropWhile (l : List Char) :
    wordsOf (l.dropWhile isWhitespace).reverse = wordsOf l.reverse := by
  induction l with
  | nil => rfl
  | cons c l ih =>
    by_cases hc : isWhitespace c = true
    · rw [List.dropWhile_cons_of_pos hc, ih, List.reverse_cons, wordsOf_concat hc]
    · rw [List.dropWhile_cons_of_neg hc]

/-- A trimmed text has the same words. -/
theorem splitWhitespace_trim (s : String) : splitWhitespace (trim s) = splitWhitespace s := by
  unfold splitWhitespace trim
  rw [String.toList_ofList]
  have hwords : wordsOf ((s.toList.dropWhile isWhitespace).reverse.dropWhile isWhitespace).reverse
      = wordsOf s.toList := by
    rw [wordsOf_reverse_dropWhile, List.reverse_reverse, wordsOf_dropWhile]
  exact congrArg (List.map String.ofList) hwords

/-! ## Decimal numbers -/

theorem isDigit_of_mem_repr {n : ℕ} {c : Char} (h : c ∈ (Nat.repr n).toList) :
    c.isDigit = true := by
  rw [Nat.toList_repr] at h
  exact Nat.isDigit_of_mem_toDigits (by omega) (by omega) h

theorem natRepr_injective {m n : ℕ} (h : Nat.repr m = Nat.repr n) : m = n := by
  have hdigits := congrArg String.toList h
  rw [Nat.toList_repr, Nat.toList_repr] at hdigits
  calc
    m = Nat.ofDigitChars 10 (Nat.toDigits 10 m) 0 := Nat.ofDigitChars_ten_toDigits.symm
    _ = Nat.ofDigitChars 10 (Nat.toDigits 10 n) 0 := by rw [hdigits]
    _ = n := Nat.ofDigitChars_ten_toDigits

theorem natRepr_ne_minus (m n : ℕ) : Nat.repr m ≠ "-" ++ Nat.repr n := by
  intro h
  have hminus : '-' ∈ (Nat.repr m).toList := by
    rw [h, String.toList_append]
    exact List.mem_append_left _ (by decide)
  exact absurd (isDigit_of_mem_repr hminus) (by decide)

theorem intRepr_injective {a b : ℤ} (h : Int.repr a = Int.repr b) : a = b := by
  rcases a with m | m <;> rcases b with n | n
  · rw [natRepr_injective h]
  · exact absurd h (natRepr_ne_minus m (n + 1))
  · exact absurd h.symm (natRepr_ne_minus n (m + 1))
  · have hlists : ("-" ++ Nat.repr (m + 1)).toList = ("-" ++ Nat.repr (n + 1)).toList :=
      congrArg String.toList h
    rw [String.toList_append, String.toList_append] at hlists
    have hsucc := natRepr_injective (String.toList_inj.mp (List.append_cancel_left hlists))
    rw [Nat.add_right_cancel_iff.mp hsucc]

/-- A character that is neither a digit nor the sign is not in a number. -/
theorem not_mem_intRepr {c : Char} (hdigit : c.isDigit = false) (hsign : c ≠ '-') (a : ℤ) :
    c ∉ (Int.repr a).toList := by
  have hnat : ∀ n, c ∉ (Nat.repr n).toList := by
    intro n h
    rw [isDigit_of_mem_repr h] at hdigit
    exact absurd hdigit (by decide)
  rcases a with n | n
  · exact hnat n
  · show c ∉ ("-" ++ Nat.repr (n + 1)).toList
    rw [String.toList_append, List.mem_append]
    intro h
    rcases h with h | h
    · exact hsign (List.mem_singleton.mp h)
    · exact hnat _ h

/-! ## Bytes that may not be UTF-8 -/

/-- What stands for bytes that are not UTF-8. -/
def replacementChar : Char := Char.ofNat 0xFFFD

/-- Read the continuation bytes of a character, each in its range: the character, or the
replacement for what does not make one, and how many bytes it took. -/
def lossyTail (value : ℕ) : List (ℕ × ℕ) → List UInt8 → ℕ → Char × ℕ
  | [], _, used => (Char.ofNat value, used)
  | _ :: _, [], used => (replacementChar, used)
  | (low, high) :: ranges, b :: rest, used =>
    if low ≤ b.toNat ∧ b.toNat ≤ high then
      lossyTail (value * 64 + b.toNat % 64) ranges rest (used + 1)
    else (replacementChar, used)

/-- The character that starts with the byte `b`, and how many of the bytes after it belong to it. -/
def lossyHead (b : UInt8) (rest : List UInt8) : Char × ℕ :=
  let n := b.toNat
  let any := (0x80, 0xBF)
  if n < 0x80 then (Char.ofNat n, 0)
  else if n < 0xC2 then (replacementChar, 0)
  else if n < 0xE0 then lossyTail (n - 0xC0) [any] rest 0
  else if n = 0xE0 then lossyTail 0 [(0xA0, 0xBF), any] rest 0
  else if n = 0xED then lossyTail 0xD [(0x80, 0x9F), any] rest 0
  else if n < 0xF0 then lossyTail (n - 0xE0) [any, any] rest 0
  else if n = 0xF0 then lossyTail 0 [(0x90, 0xBF), any, any] rest 0
  else if n < 0xF4 then lossyTail (n - 0xF0) [any, any, any] rest 0
  else if n = 0xF4 then lossyTail 4 [(0x80, 0x8F), any, any] rest 0
  else (replacementChar, 0)

/-- The characters of the bytes after the next `skip`. -/
def lossyFrom : ℕ → List UInt8 → List Char
  | _, [] => []
  | skip + 1, _ :: rest => lossyFrom skip rest
  | 0, b :: rest => (lossyHead b rest).1 :: lossyFrom (lossyHead b rest).2 rest

/-- `String::from_utf8_lossy`. -/
def fromUtf8Lossy (b : List UInt8) : String := String.ofList (lossyFrom 0 b)

example : fromUtf8Lossy [0x48, 0xFF, 0xE2, 0x82, 0xAC, 0xE2, 0x82] = "H\uFFFD€\uFFFD" := by
  decide +kernel

/-! ## Separators -/

section Separators

variable {α : Type} [DecidableEq α] {a a' b b' : List α} {c : α}

/-- The parts before and after a separator are found again where it is known how often the
separator stands in the first. -/
theorem append_cons_inj (hcount : a.count c = a'.count c) (h : a ++ c :: b = a' ++ c :: b') :
    a = a' ∧ b = b' := by
  induction a generalizing a' with
  | nil =>
    rcases a' with _ | ⟨x, a'⟩
    · exact ⟨rfl, (List.cons.inj h).2⟩
    · have hx : c = x := (List.cons.inj h).1
      rw [← hx, List.count_nil, List.count_cons_self] at hcount
      omega
  | cons x a ih =>
    rcases a' with _ | ⟨x', a'⟩
    · have hx : x = c := (List.cons.inj h).1
      rw [hx, List.count_nil, List.count_cons_self] at hcount
      omega
    · obtain ⟨hx, hrest⟩ := List.cons.inj h
      rw [hx, List.count_cons, List.count_cons, Nat.add_right_cancel_iff] at hcount
      obtain ⟨ha, hb⟩ := ih hcount hrest
      exact ⟨by rw [hx, ha], hb⟩

/-- They are found again where the separator stands in neither of the second. -/
theorem append_cons_inj_of_last (hb : c ∉ b) (hb' : c ∉ b') (h : a ++ c :: b = a' ++ c :: b') :
    a = a' ∧ b = b' := by
  have htotal := congrArg (List.count c) h
  rw [List.count_append, List.count_append, List.count_cons_self, List.count_cons_self,
    List.count_eq_zero_of_not_mem hb, List.count_eq_zero_of_not_mem hb'] at htotal
  exact append_cons_inj (by omega) h

end Separators

/-! ## Occurrences -/

section Occurrences

variable {α : Type} {pat l a b : List α} {c : α}

/-- A pattern does not occur where one of its elements does not. -/
theorem not_infix_of_mem (hmem : c ∈ pat) (hc : c ∉ l) : ¬ pat <:+: l :=
  fun h => hc (h.subset hmem)

/-- A pattern that does not start with an element occurs after it or not at all. -/
theorem infix_cons_iff_of_head (hne : pat ≠ []) (hhead : pat.head? ≠ some c) :
    pat <:+: c :: l ↔ pat <:+: l := by
  rw [List.infix_cons_iff]
  constructor
  · rintro (hpre | h)
    · rcases pat with _ | ⟨p, pat⟩
      · exact absurd rfl hne
      · have hp : p = c := (List.cons_prefix_cons.mp hpre).1
        exact absurd (congrArg some hp) hhead
    · exact h
  · exact Or.inr

/-- A pattern without a separator occurs on one side of it. -/
theorem infix_append_cons_iff (hne : pat ≠ []) (hc : c ∉ pat) :
    pat <:+: a ++ c :: b ↔ pat <:+: a ∨ pat <:+: b := by
  have hhead : pat.head? ≠ some c := fun h => hc (List.mem_of_mem_head? h)
  rw [List.infix_append_iff, infix_cons_iff_of_head hne hhead]
  constructor
  · rintro (h | h | ⟨l₁, l₂, rfl, hl₁, hl₂⟩)
    · exact Or.inl h
    · exact Or.inr h
    · rcases l₂ with _ | ⟨p, l₂⟩
      · rw [List.append_nil]
        exact Or.inl hl₁.isInfix
      · -- the part after the seam would start with the separator
        have hp : p = c := (List.cons_prefix_cons.mp hl₂).1
        exact absurd (List.mem_append_right l₁ (hp ▸ List.mem_cons_self)) hc
  · rintro (h | h)
    · exact Or.inl h
    · exact Or.inr (Or.inl h)

end Occurrences

/-! ## Several patterns -/

section Several

variable {α : Type} {pats : List (List α)} {l a b : List α} {c : α}

/-- One of the patterns occurs in the text. -/
def Occurs (pats : List (List α)) (l : List α) : Prop := ∃ pat ∈ pats, pat <:+: l

theorem not_occurs_iff : ¬ Occurs pats l ↔ ∀ pat ∈ pats, ¬ pat <:+: l := by
  unfold Occurs
  push Not
  rfl

/-- Nothing occurs in a text over an alphabet that none of the patterns is written in. -/
theorem not_occurs_of_alphabet {p : α → Prop} (hpats : ∀ pat ∈ pats, ∃ c ∈ pat, ¬ p c)
    (hl : ∀ c ∈ l, p c) : ¬ Occurs pats l := by
  intro h
  obtain ⟨pat, hpat, hinfix⟩ := h
  obtain ⟨c, hc, hnot⟩ := hpats pat hpat
  apply not_infix_of_mem hc _ hinfix
  intro hmem
  exact hnot (hl c hmem)

theorem occurs_cons_iff (hpats : ∀ pat ∈ pats, pat ≠ [] ∧ pat.head? ≠ some c) :
    Occurs pats (c :: l) ↔ Occurs pats l := by
  unfold Occurs
  apply exists_congr
  intro pat
  apply and_congr_right
  intro hpat
  exact infix_cons_iff_of_head (hpats pat hpat).1 (hpats pat hpat).2

/-- Patterns without a separator occur on one side of it. -/
theorem occurs_append_cons_iff (hpats : ∀ pat ∈ pats, pat ≠ [] ∧ c ∉ pat) :
    Occurs pats (a ++ c :: b) ↔ Occurs pats a ∨ Occurs pats b := by
  have hsplit : ∀ pat ∈ pats, (pat <:+: a ++ c :: b ↔ pat <:+: a ∨ pat <:+: b) := by
    intro pat hpat
    exact infix_append_cons_iff (hpats pat hpat).1 (hpats pat hpat).2
  unfold Occurs
  constructor
  · intro h
    obtain ⟨pat, hpat, hinfix⟩ := h
    rcases (hsplit pat hpat).mp hinfix with ha | hb
    · exact Or.inl ⟨pat, hpat, ha⟩
    · exact Or.inr ⟨pat, hpat, hb⟩
  · intro h
    rcases h with ⟨pat, hpat, ha⟩ | ⟨pat, hpat, hb⟩
    · exact ⟨pat, hpat, (hsplit pat hpat).mpr (Or.inl ha)⟩
    · exact ⟨pat, hpat, (hsplit pat hpat).mpr (Or.inr hb)⟩

end Several

end Text
