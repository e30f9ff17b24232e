import Mathlib.Data.List.Induction
import Mathlib.Tactic.Ring

/-!
# Bytes on the wire

Fixed-width fields of a byte string: `readExact n` splits off a field of `n` bytes, and
`beBytes w n` is the number `n` in `w` bytes, most significant first. Each reader comes with the
two facts a codec needs: it reads back what was written, whatever follows, and what it read is
what stands there.
-/

namespace Wire

/-- A field of `n` bytes. -/
abbrev Field (n : ℕ) : Type := { b : List UInt8 // b.length = n }

/-- The field of `n` equal bytes. -/
def Field.replicate (n : ℕ) (b : UInt8) : Field n := ⟨List.replicate n b, List.length_replicate⟩

/-- The field of the bytes `0`, `1` and so on. -/
def Field.range (n : ℕ) : Field n := ⟨(List.range n).map UInt8.ofNat, by simp⟩

/-- Split off a field of `n` bytes. -/
def readExact (n : ℕ) (b : List UInt8) : Option (Field n × List UInt8) :=
  if h : n ≤ b.length then some (⟨b.take n, List.length_take_of_le h⟩, b.drop n) else none

theorem readExact_append {n : ℕ} (f : Field n) (rest : List UInt8) :
    readExact n (f.1 ++ rest) = some (f, rest) := by
  obtain ⟨b, rfl⟩ := f
  have hlen : b.length ≤ (b ++ rest).length := by simp
  unfold readExact
  rw [dif_pos hlen]
  simp

theorem readExact_sound {n : ℕ} {b rest : List UInt8} {f : Field n}
    (h : readExact n b = some (f, rest)) : b = f.1 ++ rest := by
  unfold readExact at h
  split_ifs at h
  obtain ⟨rfl, rfl⟩ := Prod.mk.inj (Option.some.inj h)
  exact (List.take_append_drop n b).symm

/-! ## Numbers, most significant byte first -/

/-- The number `n` in `w` bytes. -/
def beBytes : ℕ → ℕ → List UInt8
  | 0, _ => []
  | w + 1, n => beBytes w (n / 256) ++ [UInt8.ofNat n]

/-- The number that bytes make. -/
def beValue (b : List UInt8) : ℕ := b.foldl (fun acc byte => acc * 256 + byte.toNat) 0

@[simp] theorem length_beBytes (w n : ℕ) : (beBytes w n).length = w := by
  induction w generalizing n with
  | zero => rfl
  | succ w ih => rw [beBytes, List.length_append, ih]; rfl

theorem beValue_concat (b : List UInt8) (byte : UInt8) :
    beValue (b ++ [byte]) = beValue b * 256 + byte.toNat := by
  rw [beValue, List.foldl_append]
  rfl

/-- A number that fits is read back. -/
theorem beValue_beBytes {w n : ℕ} (h : n < 256 ^ w) : beValue (beBytes w n) = n := by
  induction w generalizing n with
  | zero =>
    have hzero : n = 0 := by simpa using h
    rw [hzero]
    rfl
  | succ w ih =>
    have hdiv : n / 256 < 256 ^ w := by
      rw [Nat.div_lt_iff_lt_mul (by decide), ← pow_succ]
      exact h
    have hbyte : (UInt8.ofNat n).toNat = n % 256 := rfl
    rw [beBytes, beValue_concat, ih hdiv, hbyte]
    omega

theorem beValue_lt (b : List UInt8) : beValue b < 256 ^ b.length := by
  induction b using List.reverseRecOn with
  | nil => decide
  | append_singleton b byte ih =>
    have hbyte := byte.toNat_lt
    rw [beValue_concat, List.length_append, List.length_singleton, pow_succ]
    omega

/-- The bytes of a number that was read are those it was read from. -/
theorem beBytes_beValue (b : List UInt8) : beBytes b.length (beValue b) = b := by
  induction b using List.reverseRecOn with
  | nil => rfl
  | append_singleton b byte ih =>
    have hbyte := byte.toNat_lt
    have hdiv : (beValue b * 256 + byte.toNat) / 256 = beValue b := by omega
    have hlow : UInt8.ofNat (beValue b * 256 + byte.toNat) = byte := by
      rw [← UInt8.toNat_inj]
      show (beValue b * 256 + byte.toNat) % 256 = byte.toNat
      omega
    rw [beValue_concat, List.length_append, List.length_singleton, beBytes, hdiv, ih, hlow]

end Wire
