import Mathlib.Data.List.Induction
import Mathlib.Tactic.Ring

/-!
# Base32

A `Base32` engine writes bytes as a text and reads them back. It is strict: it reads what it
wrote and nothing else.

`Base32.standard` is the engine of the standard alphabet without padding. Both directions go
through the bits: the bytes' bits are regrouped by five, with zeros after the last, and a text's
bits are regrouped by eight, without those left over.
-/

/-- A strict base32 engine. -/
structure Base32 where
  encode : List UInt8 → String
  decode : String → Except String (List UInt8)
  decode_encode : ∀ b, decode (encode b) = .ok b
  encode_of_decode : ∀ {s b}, decode s = .ok b → encode b = s

namespace Base32

theorem encode_injective (e : Base32) {b b' : List UInt8} (h : e.encode b = e.encode b') :
    b = b' := by
  have hdecode := e.decode_encode b
  rw [h, e.decode_encode b', Except.ok.injEq] at hdecode
  exact hdecode.symm

/-! ## Bits -/

/-- The low `k` bits of `n`, the highest first. -/
def bits : ℕ → ℕ → List Bool
  | 0, _ => []
  | k + 1, n => bits k (n / 2) ++ [decide (n % 2 = 1)]

/-- The number that bits make. -/
def ofBits (l : List Bool) : ℕ := l.foldl (fun n b => 2 * n + b.toNat) 0

@[simp] theorem length_bits (k n : ℕ) : (bits k n).length = k := by
  induction k generalizing n with
  | zero => rfl
  | succ k ih => rw [bits, List.length_append, ih]; rfl

theorem ofBits_concat (l : List Bool) (b : Bool) :
    ofBits (l ++ [b]) = 2 * ofBits l + b.toNat := by
  unfold ofBits
  rw [List.foldl_append]
  rfl

theorem ofBits_bits {k n : ℕ} (h : n < 2 ^ k) : ofBits (bits k n) = n := by
  induction k generalizing n with
  | zero =>
    have hzero : n = 0 := by simpa using h
    rw [hzero]
    rfl
  | succ k ih =>
    have hhalf : n / 2 < 2 ^ k := by
      rw [pow_succ] at h
      omega
    have hlow : (decide (n % 2 = 1)).toNat = n % 2 := by
      rcases Nat.mod_two_eq_zero_or_one n with h0 | h1
      · rw [h0]; rfl
      · rw [h1]; rfl
    rw [bits, ofBits_concat, ih hhalf, hlow]
    omega

theorem bits_ofBits (l : List Bool) : bits l.length (ofBits l) = l := by
  induction l using List.reverseRecOn with
  | nil => rfl
  | append_singleton l b ih =>
    have hhigh : (2 * ofBits l + b.toNat) / 2 = ofBits l := by
      have hb := Bool.toNat_le b
      omega
    have hlow : decide ((2 * ofBits l + b.toNat) % 2 = 1) = b := by
      rcases b with _ | _
      · simp
      · simp [Nat.add_mod]
    rw [ofBits_concat, List.length_append, List.length_singleton, bits, hhigh, hlow, ih]

theorem ofBits_lt (l : List Bool) : ofBits l < 2 ^ l.length := by
  induction l using List.reverseRecOn with
  | nil => decide
  | append_singleton l b ih =>
    have hb := Bool.toNat_le b
    rw [ofBits_concat, List.length_append, List.length_singleton, pow_succ]
    omega

/-! ## Groups -/

/-- The first `n` groups of `k` elements. -/
def groups {α : Type} (k : ℕ) : ℕ → List α → List (List α)
  | 0, _ => []
  | n + 1, l => l.take k :: groups k n (l.drop k)

@[simp] theorem length_groups {α : Type} (k n : ℕ) (l : List α) : (groups k n l).length = n := by
  induction n generalizing l with
  | zero => rfl
  | succ n ih => rw [groups, List.length_cons, ih]

/-- Pieces of one length are found again, whatever follows. -/
theorem groups_flatMap {α β : Type} {k : ℕ} {f : α → List β} (hf : ∀ x, (f x).length = k)
    (xs : List α) (tail : List β) : groups k xs.length (xs.flatMap f ++ tail) = xs.map f := by
  induction xs with
  | nil => rfl
  | cons x xs ih =>
    rw [List.length_cons, groups, List.flatMap_cons, List.append_assoc,
      List.take_left' (hf x), List.drop_left' (hf x), ih, List.map_cons]

/-- Groups that use up a list make it up, and each has its size. -/
theorem groups_flatten {α : Type} {k n : ℕ} {l : List α} (h : l.length = k * n) :
    (groups k n l).flatten = l ∧ ∀ g ∈ groups k n l, g.length = k := by
  induction n generalizing l with
  | zero =>
    rw [Nat.mul_zero, List.length_eq_zero_iff] at h
    rw [h]
    exact ⟨rfl, fun _ hg => absurd hg List.not_mem_nil⟩
  | succ n ih =>
    rw [Nat.mul_succ] at h
    have hrest : (l.drop k).length = k * n := by
      rw [List.length_drop]
      omega
    obtain ⟨hflat, hsize⟩ := ih hrest
    refine ⟨?_, fun g hg => ?_⟩
    · rw [groups, List.flatten_cons, hflat, List.take_append_drop]
    · rcases List.mem_cons.mp hg with rfl | hg
      · exact List.length_take_of_le (by omega)
      · exact hsize g hg

/-- The first groups are those of the elements they hold. -/
theorem take_groups {α : Type} {k m n : ℕ} (h : m ≤ n) (l : List α) :
    (groups k n l).take m = groups k m (l.take (k * m)) := by
  induction m generalizing n l with
  | zero => rfl
  | succ m ih =>
    obtain ⟨n, rfl⟩ : ∃ n', n = n' + 1 := ⟨n - 1, by omega⟩
    have hsize : k * (m + 1) = k + k * m := by ring
    have hmin : min k (k + k * m) = k := Nat.min_eq_left (Nat.le_add_right _ _)
    rw [groups, groups, List.take_succ_cons, ih (by omega), List.take_take, hsize, hmin,
      List.drop_take, Nat.add_sub_cancel_left]

/-! ## The standard alphabet -/

namespace Standard

def alphabet : List Char := "ABCDEFGHIJKLMNOPQRSTUVWXYZ234567".toList

/-- The symbol of a value below 32. -/
def symbol (n : ℕ) : Char := alphabet.getD n '='

/-- The value of a symbol. -/
def value (c : Char) : ℕ := alphabet.idxOf c

/-- The symbols that hold the bits of so many bytes. -/
def symbolCount (bytes : ℕ) : ℕ := (8 * bytes + 4) / 5

/-- The bits of the bytes, and zeros up to a whole number of symbols. -/
def paddedBits (b : List UInt8) : List Bool :=
  b.flatMap (fun x => bits 8 x.toNat)
    ++ List.replicate (5 * symbolCount b.length - 8 * b.length) false

def encodeChars (b : List UInt8) : List Char :=
  (groups 5 (symbolCount b.length) (paddedBits b)).map fun g => symbol (ofBits g)

/-- The bytes of a text; whether it is well formed is not asked. -/
def decodeChars (s : List Char) : List UInt8 :=
  (groups 8 (5 * s.length / 8) (s.flatMap fun c => bits 5 (value c))).map
    fun g => UInt8.ofNat (ofBits g)

theorem value_symbol {n : ℕ} (h : n < 32) : value (symbol n) = n := by
  have hall : ∀ i : Fin 32, value (symbol i) = i := by decide +kernel
  exact hall ⟨n, h⟩

theorem length_flatMap_bits (b : List UInt8) :
    (b.flatMap fun x => bits 8 x.toNat).length = 8 * b.length := by
  induction b with
  | nil => rfl
  | cons x b ih =>
    rw [List.flatMap_cons, List.length_append, ih, length_bits, List.length_cons]
    omega

theorem length_paddedBits (b : List UInt8) :
    (paddedBits b).length = 5 * symbolCount b.length := by
  unfold paddedBits symbolCount
  rw [List.length_append, length_flatMap_bits, List.length_replicate]
  omega

/-- The symbols hold the padded bits. -/
theorem flatMap_encodeChars (b : List UInt8) :
    ((encodeChars b).flatMap fun c => bits 5 (value c)) = paddedBits b := by
  obtain ⟨hflat, hsize⟩ := groups_flatten (length_paddedBits b)
  have hgroup : ∀ g ∈ groups 5 (symbolCount b.length) (paddedBits b),
      bits 5 (value (symbol (ofBits g))) = g := by
    intro g hg
    have hlt := ofBits_lt g
    rw [hsize g hg] at hlt
    have hbits := bits_ofBits g
    rw [hsize g hg] at hbits
    rw [value_symbol hlt, hbits]
  show ((groups 5 _ (paddedBits b)).map fun g => symbol (ofBits g)).flatMap _ = _
  rw [List.flatMap_map, List.flatMap_def, List.map_congr_left hgroup, List.map_id', hflat]

theorem length_encodeChars (b : List UInt8) : (encodeChars b).length = symbolCount b.length := by
  unfold encodeChars
  rw [List.length_map, length_groups]

/-- The bits of the first bytes are the first bits. -/
theorem take_paddedBits {b : List UInt8} {m n : ℕ} (hm : m ≤ 8 * n) (hn : n ≤ b.length) :
    (paddedBits (b.take n)).take m = (paddedBits b).take m := by
  have hfirst : ∀ b' : List UInt8, m ≤ 8 * b'.length →
      (paddedBits b').take m = (b'.flatMap fun x => bits 8 x.toNat).take m := by
    intro b' hb
    unfold paddedBits
    apply List.take_append_of_le_length
    rw [length_flatMap_bits]
    exact hb
  have hsplit : (b.flatMap fun x => bits 8 x.toNat)
      = ((b.take n).flatMap fun x => bits 8 x.toNat)
        ++ ((b.drop n).flatMap fun x => bits 8 x.toNat) := by
    rw [← List.flatMap_append, List.take_append_drop]
  have hlength : (b.take n).length = n := List.length_take_of_le hn
  rw [hfirst _ (by omega), hfirst _ (by omega), hsplit, List.take_append_of_le_length]
  rw [length_flatMap_bits, hlength]
  exact hm

/-- The symbols that hold no bit past the first bytes are those of the first bytes. -/
theorem take_encodeChars {b : List UInt8} {k n : ℕ} (hk : 5 * k ≤ 8 * n) (hn : n ≤ b.length) :
    (encodeChars (b.take n)).take k = (encodeChars b).take k := by
  have hlength : (b.take n).length = n := List.length_take_of_le hn
  have hfew : ∀ b' : List UInt8, 5 * k ≤ 8 * b'.length → k ≤ symbolCount b'.length := by
    intro b' hb
    unfold symbolCount
    omega
  unfold encodeChars
  rw [← List.map_take, ← List.map_take, take_groups (hfew _ (by omega)),
    take_groups (hfew _ (by omega)), take_paddedBits hk hn]

/-- Whether a text starts with some symbols is decided by the bytes that have a bit in them. -/
theorem isPrefix_encodeChars_take {b : List UInt8} {symbols : List Char} {n : ℕ}
    (hsymbols : 5 * symbols.length ≤ 8 * n) (hn : n ≤ b.length) :
    symbols <+: encodeChars (b.take n) ↔ symbols <+: encodeChars b := by
  rw [List.prefix_iff_eq_take, List.prefix_iff_eq_take, take_encodeChars hsymbols hn]

theorem decodeChars_encodeChars (b : List UInt8) : decodeChars (encodeChars b) = b := by
  have hcount : 5 * (encodeChars b).length / 8 = b.length := by
    rw [length_encodeChars]
    unfold symbolCount
    omega
  have hbyte : ∀ x : UInt8, UInt8.ofNat (ofBits (bits 8 x.toNat)) = x := by
    intro x
    rw [ofBits_bits x.toNat_lt, UInt8.ofNat_toNat]
  have hgroups : groups 8 b.length (paddedBits b) = b.map fun x : UInt8 => bits 8 x.toNat :=
    groups_flatMap (fun x : UInt8 => length_bits 8 x.toNat) b _
  unfold decodeChars
  rw [flatMap_encodeChars, hcount, hgroups, List.map_map]
  exact (List.map_congr_left fun x _ => hbyte x).trans (List.map_id b)

def encode (b : List UInt8) : String := String.ofList (encodeChars b)

def decode (s : String) : Except String (List UInt8) :=
  if encode (decodeChars s.toList) = s then .ok (decodeChars s.toList)
  else .error "Invalid base32"

end Standard

/-- The standard alphabet, without padding. -/
def standard : Base32 where
  encode := Standard.encode
  decode := Standard.decode
  decode_encode b := by
    have hchars : Standard.decodeChars (Standard.encode b).toList = b := by
      rw [Standard.encode, String.toList_ofList, Standard.decodeChars_encodeChars]
    rw [Standard.decode, hchars, if_pos rfl]
  encode_of_decode {s b} h := by
    unfold Standard.decode at h
    split_ifs at h with hs
    rw [← Except.ok.inj h]
    exact hs

end Base32
