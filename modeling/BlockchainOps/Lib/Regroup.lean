import Mathlib.Data.Nat.Bitwise
import Mathlib.Data.Nat.Digits.Defs
import Mathlib.Tactic.Ring

/-!
# Regrouping bits

A `Packer` takes digits of `a` bits in and gives digits of `b` bits out, lowest bits first,
through a buffer of a machine word. `Packed a b ds s` says what it has done after the digits `ds`: the
digits given out and the buffer make the same number as `ds`, and the buffer holds the bits that
are still to come. One lemma for each operation keeps it.

Two lists are `Regrouped` when one is the other's number in digits of another width, with no more
digits than it takes. Regrouping twice gives the digits back, followed by padding
(`Regrouped.take_eq`).
-/

namespace Regroup

open Nat (ofDigits)

/-- The buffer, how many of its bits are in use, and the digits given out so far. -/
structure Packer where
  buf : ℕ
  bitCount : ℕ
  out : List ℕ
deriving DecidableEq, Repr

namespace Packer

/-- Nothing taken in yet. -/
def init : Packer := ⟨0, 0, []⟩

/-- Take in a digit of `a` bits, above the bits in the buffer; the buffer is a word of `word`
bits. -/
def push (word a : ℕ) (s : Packer) (n : ℕ) : Packer :=
  { s with buf := s.buf ||| (n <<< s.bitCount) % 2 ^ word, bitCount := s.bitCount + a }

/-- A digit is taken in without a loss: the shift is shorter than the word, no bit of the digit is
shifted out of it, and the buffer is one. -/
def Fits (word a : ℕ) (s : Packer) (n : ℕ) : Prop :=
  s.bitCount + a ≤ word ∧ n <<< s.bitCount < 2 ^ word ∧ (s.push word a n).buf < 2 ^ word

/-- Give out the lowest `b` bits. -/
def emit (b : ℕ) (s : Packer) : Packer :=
  ⟨s.buf >>> b, s.bitCount - b, s.out ++ [s.buf &&& (2 ^ b - 1)]⟩

/-- Give out digits for as long as there are enough bits for one; `fuel` bounds the rounds. -/
def drain (b : ℕ) : ℕ → Packer → Packer
  | 0, s => s
  | fuel + 1, s => if b ≤ s.bitCount then drain b fuel (s.emit b) else s

/-- The digits given out, with one more for the bits that are left. -/
def finish (b : ℕ) (s : Packer) : List ℕ :=
  if s.bitCount ≠ 0 then s.out ++ [s.buf &&& (2 ^ b - 1)] else s.out

end Packer

/-- After the digits `ds` of `a` bits the packer has given out all the bits but those in the
buffer, and lost none. -/
structure Packed (a b : ℕ) (ds : List ℕ) (s : Packer) : Prop where
  buf_lt : s.buf < 2 ^ s.bitCount
  out_lt : ∀ x ∈ s.out, x < 2 ^ b
  bits : b * s.out.length + s.bitCount = a * ds.length
  value : ofDigits (2 ^ b) s.out + 2 ^ (b * s.out.length) * s.buf = ofDigits (2 ^ a) ds

variable {word a b : ℕ} {ds : List ℕ} {s : Packer}

theorem ofDigits_concat (base : ℕ) (l : List ℕ) (x : ℕ) :
    ofDigits base (l ++ [x]) = ofDigits base l + base ^ l.length * x := by
  rw [Nat.ofDigits_append, Nat.ofDigits_singleton]

namespace Packed

theorem init (a b : ℕ) : Packed a b [] .init := by
  refine ⟨?_, ?_, ?_, ?_⟩ <;> simp [Packer.init]

/-- A digit that has room is not shifted out of the word. -/
theorem shiftLeft_lt {count n : ℕ} (hn : n < 2 ^ a) (hroom : count + a ≤ word) :
    n <<< count < 2 ^ word := by
  rw [Nat.shiftLeft_eq, Nat.mul_comm]
  calc 2 ^ count * n < 2 ^ count * 2 ^ a := Nat.mul_lt_mul_of_pos_left hn (Nat.two_pow_pos _)
    _ = 2 ^ (count + a) := (pow_add _ _ _).symm
    _ ≤ 2 ^ word := Nat.pow_le_pow_right (by omega) hroom

/-- The bits of a new digit do not meet those in the buffer. -/
theorem push (h : Packed a b ds s) {n : ℕ} (hn : n < 2 ^ a) (hroom : s.bitCount + a ≤ word) :
    Packed a b (ds ++ [n]) (s.push word a n) := by
  have hshift : n <<< s.bitCount = 2 ^ s.bitCount * n := by
    rw [Nat.shiftLeft_eq, Nat.mul_comm]
  have hsmall : 2 ^ s.bitCount * n < 2 ^ word := by
    rw [← hshift]
    exact shiftLeft_lt hn hroom
  have hbuf : (s.push word a n).buf = 2 ^ s.bitCount * n + s.buf := by
    show s.buf ||| (n <<< s.bitCount) % 2 ^ word = _
    rw [hshift, Nat.mod_eq_of_lt hsmall, Nat.two_pow_add_eq_or_of_lt h.buf_lt, Nat.lor_comm]
  refine ⟨?_, h.out_lt, ?_, ?_⟩
  · rw [hbuf]
    show _ < 2 ^ (s.bitCount + a)
    calc 2 ^ s.bitCount * n + s.buf < 2 ^ s.bitCount * n + 2 ^ s.bitCount := by
          have := h.buf_lt
          omega
      _ = 2 ^ s.bitCount * (n + 1) := by ring
      _ ≤ 2 ^ s.bitCount * 2 ^ a := Nat.mul_le_mul_left _ hn
      _ = 2 ^ (s.bitCount + a) := (pow_add _ _ _).symm
  · have hbits := h.bits
    show b * s.out.length + (s.bitCount + a) = a * (ds ++ [n]).length
    rw [List.length_append, List.length_singleton, Nat.mul_add]
    omega
  · rw [hbuf, ofDigits_concat, ← h.value]
    show ofDigits (2 ^ b) s.out + 2 ^ (b * s.out.length) * (2 ^ s.bitCount * n + s.buf) = _
    have hpow : (2 ^ a) ^ ds.length = 2 ^ (b * s.out.length) * 2 ^ s.bitCount := by
      rw [← pow_mul, ← pow_add, h.bits]
    rw [hpow]
    ring

theorem fits (h : Packed a b ds s) {n : ℕ} (hn : n < 2 ^ a) (hroom : s.bitCount + a ≤ word) :
    s.Fits word a n := by
  refine ⟨hroom, shiftLeft_lt hn hroom, ?_⟩
  calc (s.push word a n).buf < 2 ^ (s.bitCount + a) := (h.push hn hroom).buf_lt
    _ ≤ 2 ^ word := Nat.pow_le_pow_right (by omega) hroom

/-- A digit given out is the lowest of what the buffer holds. -/
theorem emit (h : Packed a b ds s) (hb : b ≤ s.bitCount) : Packed a b ds (s.emit b) := by
  have hmask : s.buf &&& (2 ^ b - 1) = s.buf % 2 ^ b := Nat.and_two_pow_sub_one_eq_mod _ _
  have hsplit : s.buf = 2 ^ b * (s.buf >>> b) + s.buf % 2 ^ b := by
    rw [Nat.shiftRight_eq_div_pow]
    exact (Nat.div_add_mod _ _).symm
  refine ⟨?_, ?_, ?_, ?_⟩
  · show s.buf >>> b < 2 ^ (s.bitCount - b)
    rw [Nat.shiftRight_eq_div_pow, Nat.div_lt_iff_lt_mul (Nat.two_pow_pos _), ← pow_add,
      Nat.sub_add_cancel hb]
    exact h.buf_lt
  · intro x hx
    rcases List.mem_append.mp hx with hold | hnew
    · exact h.out_lt x hold
    · rw [List.mem_singleton.mp hnew, hmask]
      exact Nat.mod_lt _ (Nat.two_pow_pos _)
  · have hbits := h.bits
    show b * (s.out ++ [s.buf &&& (2 ^ b - 1)]).length + (s.bitCount - b) = _
    rw [List.length_append, List.length_singleton, Nat.mul_add]
    omega
  · show ofDigits (2 ^ b) (s.out ++ [s.buf &&& (2 ^ b - 1)])
      + 2 ^ (b * (s.out ++ [s.buf &&& (2 ^ b - 1)]).length) * (s.buf >>> b) = _
    rw [ofDigits_concat, List.length_append, List.length_singleton, hmask, ← h.value]
    conv_rhs => rw [hsplit]
    rw [← pow_mul, Nat.mul_add, pow_add, Nat.mul_one]
    ring

/-- Draining leaves fewer bits than a digit takes. -/
theorem drain (hb : 0 < b) : ∀ {fuel : ℕ} {s : Packer}, Packed a b ds s → s.bitCount < b + fuel →
    Packed a b ds (s.drain b fuel) ∧ (s.drain b fuel).bitCount < b
  | 0, s, h, hfuel => ⟨h, hfuel⟩
  | fuel + 1, s, h, hfuel => by
    unfold Packer.drain
    by_cases hmore : b ≤ s.bitCount
    · rw [if_pos hmore]
      refine drain hb (h.emit hmore) ?_
      show s.bitCount - b < b + fuel
      omega
    · rw [if_neg hmore]
      exact ⟨h, by omega⟩

end Packed

/-- `out` is the number of `ds` in digits of `b` instead of `a` bits, and no digit more than it
takes. -/
structure Regrouped (a b : ℕ) (ds out : List ℕ) : Prop where
  lt : ∀ x ∈ out, x < 2 ^ b
  value : ofDigits (2 ^ b) out = ofDigits (2 ^ a) ds
  enough : a * ds.length ≤ b * out.length
  least : b * out.length < a * ds.length + b

/-- The last digit takes what is left in the buffer. -/
theorem Packed.finish (h : Packed a b ds s) (hb : s.bitCount < b) :
    Regrouped a b ds (s.finish b) := by
  have hbits := h.bits
  have hvalue := h.value
  unfold Packer.finish
  by_cases hleft : s.bitCount ≠ 0
  · rw [if_pos hleft]
    have hsmall : s.buf < 2 ^ b := h.buf_lt.trans (Nat.pow_lt_pow_right (by omega) hb)
    have hmask : s.buf &&& (2 ^ b - 1) = s.buf := by
      rw [Nat.and_two_pow_sub_one_eq_mod, Nat.mod_eq_of_lt hsmall]
    rw [hmask]
    refine ⟨fun x hx => ?_, ?_, ?_, ?_⟩
    · rcases List.mem_append.mp hx with hold | hnew
      · exact h.out_lt x hold
      · rw [List.mem_singleton.mp hnew]
        exact hsmall
    · rw [ofDigits_concat, ← pow_mul]
      exact hvalue
    · rw [List.length_append, List.length_singleton, Nat.mul_add]
      omega
    · rw [List.length_append, List.length_singleton, Nat.mul_add]
      omega
  · rw [if_neg hleft]
    have hzero : s.bitCount = 0 := by omega
    have hempty : s.buf = 0 := by
      have := h.buf_lt
      rw [hzero] at this
      omega
    rw [hempty, Nat.mul_zero, Nat.add_zero] at hvalue
    exact ⟨h.out_lt, hvalue, by omega, by omega⟩

/-- Regrouping twice gives the digits back, followed by padding. -/
theorem Regrouped.take_eq (ha : 0 < a) {mid back : List ℕ} (hds : ∀ x ∈ ds, x < 2 ^ a)
    (h : Regrouped a b ds mid) (h' : Regrouped b a mid back) :
    ds.length ≤ back.length ∧ back.take ds.length = ds := by
  have hlen : ds.length ≤ back.length := by
    have := h.enough.trans h'.enough
    exact Nat.le_of_mul_le_mul_left this ha
  have hbase : 1 < 2 ^ a := Nat.one_lt_two_pow (by omega)
  refine ⟨hlen, Nat.ofDigits_inj_of_len_eq hbase ?_ (fun x hx => h'.lt x (List.mem_of_mem_take hx))
    hds ?_⟩
  · rw [List.length_take, Nat.min_eq_left hlen]
  · have hvalue : ofDigits (2 ^ a) back = ofDigits (2 ^ a) ds := h'.value.trans h.value
    have hsmall : ofDigits (2 ^ a) ds < (2 ^ a) ^ ds.length :=
      Nat.ofDigits_lt_base_pow_length hbase hds
    rw [← Nat.ofDigits_mod_pow_eq_ofDigits_take _ (by omega) _ h'.lt, hvalue,
      Nat.mod_eq_of_lt hsmall]

/-- The number of digits of a regrouping. -/
theorem Regrouped.length_eq (hb : 0 < b) {out : List ℕ} (h : Regrouped a b ds out) :
    out.length = (a * ds.length + b - 1) / b := by
  have henough := h.enough
  have hleast := h.least
  rw [Nat.mul_comm b] at henough hleast
  symm
  rw [Nat.div_eq_iff hb]
  omega

/-- Digits whose first `n` after regrouping are regrouped again come back exactly when there are no
more of them than `n` digits take, and their bits above those are zero. -/
theorem Regrouped.take_regrouped_eq_iff (ha : 0 < a) (hb : 0 < b) {mid back out : List ℕ} {n : ℕ}
    (hmid : ∀ x ∈ mid, x < 2 ^ b) (h : Regrouped b a mid back) (hn : n ≤ back.length)
    (h' : Regrouped a b (back.take n) out) :
    out = mid ↔ mid.length = (a * n + b - 1) / b ∧ ofDigits (2 ^ b) mid < (2 ^ a) ^ n := by
  have hlen : (back.take n).length = n := by rw [List.length_take, Nat.min_eq_left hn]
  have hout : out.length = (a * n + b - 1) / b := by
    rw [h'.length_eq hb, hlen]
  have hbase : 1 < 2 ^ a := Nat.one_lt_two_pow (by omega)
  constructor
  · rintro rfl
    refine ⟨hout, ?_⟩
    rw [h'.value]
    calc ofDigits (2 ^ a) (back.take n) < (2 ^ a) ^ (back.take n).length :=
          Nat.ofDigits_lt_base_pow_length hbase fun x hx => h.lt x (List.mem_of_mem_take hx)
      _ = (2 ^ a) ^ n := by rw [hlen]
  · rintro ⟨hlength, hsmall⟩
    refine Nat.ofDigits_inj_of_len_eq (Nat.one_lt_two_pow (by omega)) (hout.trans hlength.symm)
      h'.lt hmid ?_
    calc ofDigits (2 ^ b) out = ofDigits (2 ^ a) (back.take n) := h'.value
      _ = ofDigits (2 ^ a) back % (2 ^ a) ^ n :=
          (Nat.ofDigits_mod_pow_eq_ofDigits_take _ (by omega) _ h.lt).symm
      _ = ofDigits (2 ^ b) mid := by rw [h.value, Nat.mod_eq_of_lt hsmall]

end Regroup
