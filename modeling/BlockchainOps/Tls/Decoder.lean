import Mathlib.Data.Nat.Bitwise
import BlockchainOps.Algo.LocalState
import BlockchainOps.Lib.Effect

/-!
# The membership bit

`bitDecoder` reads a permission out of the flat form of an account's local state: it looks for a
key, parses the value's text as a `u64` and tests one bit. The shift panics for a bit past 63 in a
build that checks for overflow, and wraps in one that does not.

The flat form does not say what a text was on chain. A byte string of decimal digits reads as a
number, and a key that is not UTF-8 reads as its base64 text: such an entry is an `Impostor` of a
`uint` under the key.
-/

namespace BlockchainOps.Tls

open Effect Algo

/-- Decides from an account's flat local state whether it is a permitted member. -/
abbrev MembershipDecoder := List (String × String) → Outcome Algo.Error Bool

/-- `str::parse::<u64>`: decimal digits after an optional plus sign, within range. -/
def parseU64 (s : String) : Option UInt64 :=
  let digits :=
    match s.toList with
    | '+' :: digits => digits
    | digits => digits
  if digits ≠ [] ∧ digits.all Char.isDigit ∧ Nat.ofDigitChars 10 digits 0 < 2 ^ 64 then
    some (UInt64.ofNat (Nat.ofDigitChars 10 digits 0))
  else none

/-- `1u64 << bit`. -/
def oneShiftedBy (overflowChecks : Bool) (bit : UInt8) : Outcome Algo.Error UInt64 :=
  if overflowChecks ∧ 64 ≤ bit then .stop .panic else .ok (1 <<< bit.toUInt64)

/-- Whether `bit` is set in the `uint` under `key`; the first entry that says so decides. -/
def bitDecoder (overflowChecks : Bool) (key : String) (bit : UInt8) : MembershipDecoder
  | [] => .ok false
  | (k, v) :: rest =>
    if k = key then
      match parseU64 v with
      | some packed =>
        match oneShiftedBy overflowChecks bit with
        | .ok mask =>
          if packed &&& mask ≠ 0 then .ok true else bitDecoder overflowChecks key bit rest
        | .err e => .err e
        | .stop w => .stop w
      | none => bitDecoder overflowChecks key bit rest
    else bitDecoder overflowChecks key bit rest

/-! ## Parsing the texts of values -/

/-- The number a value's text reads as. -/
def numberOf : TealValue → Option UInt64
  | .uint n => some n
  | .bytes b => fromUtf8 b >>= parseU64

theorem parseU64_toString (n : UInt64) : parseU64 (toString n.toNat) = some n := by
  have hdigits : (toString n.toNat).toList = Nat.toDigits 10 n.toNat := Nat.toList_repr
  have hne : Nat.toDigits 10 n.toNat ≠ [] := Nat.toDigits_ne_nil
  have hall : ∀ c ∈ Nat.toDigits 10 n.toNat, c.isDigit = true :=
    fun c hc => Nat.isDigit_of_mem_toDigits (by decide) (by decide) hc
  have hvalue : Nat.ofDigitChars 10 (Nat.toDigits 10 n.toNat) 0 = n.toNat :=
    Nat.ofDigitChars_ten_toDigits
  have hplain : (match Nat.toDigits 10 n.toNat with
      | '+' :: digits => digits
      | digits => digits) = Nat.toDigits 10 n.toNat := by
    -- a decimal digit is not a plus sign
    split
    · rename_i digits heq
      rw [heq] at hall
      exact absurd (hall '+' List.mem_cons_self) (by decide)
    · rfl
  unfold parseU64
  rw [hdigits, hplain]
  dsimp only
  rw [hvalue, if_pos ⟨hne, List.all_eq_true.mpr hall, n.toNat_lt⟩, UInt64.ofNat_toNat]

/-- A hexadecimal form is not a number. -/
theorem parseU64_hex (bytes : Bytes) :
    parseU64 (bytes.foldl (fun hex byte => hex ++ hexByte byte) "0x") = none := by
  have hstart : ∀ (bs : Bytes) (s : String) (cs : List Char), s.toList = '0' :: 'x' :: cs →
      ∃ cs', (bs.foldl (fun hex byte => hex ++ hexByte byte) s).toList = '0' :: 'x' :: cs' := by
    intro bs
    induction bs with
    | nil => intro s cs h; exact ⟨cs, h⟩
    | cons b bs ih =>
      intro s cs h
      exact ih (s ++ hexByte b) (cs ++ (hexByte b).toList) (by rw [String.toList_append, h]; rfl)
  obtain ⟨cs, hcs⟩ := hstart bytes "0x" [] (by decide)
  have hx : Char.isDigit 'x' = false := by decide
  unfold parseU64
  rw [hcs]
  dsimp only
  rw [if_neg]
  intro h
  simp [hx] at h

theorem parseU64_text (v : TealValue) : parseU64 v.text = numberOf v := by
  rcases v with n | b
  · exact parseU64_toString n
  · show parseU64 (textOfBytes b) = fromUtf8 b >>= parseU64
    unfold textOfBytes
    rcases fromUtf8 b with _ | s
    · exact parseU64_hex b
    · rfl

/-! ## What the decoder answers -/

theorem and_one_shift_ne_zero_iff (packed : UInt64) (bit : UInt8) :
    packed &&& (1 <<< bit.toUInt64) ≠ 0 ↔ packed.toNat.testBit (bit.toNat % 64) = true := by
  have hbit : (bit.toUInt64).toNat = bit.toNat := rfl
  have hlt : 2 ^ (bit.toNat % 64) < 2 ^ 64 := Nat.pow_lt_pow_right (by decide) (by omega)
  have hnat : (packed &&& (1 <<< bit.toUInt64)).toNat
      = (packed.toNat.testBit (bit.toNat % 64)).toNat * 2 ^ (bit.toNat % 64) := by
    rw [UInt64.toNat_and, UInt64.toNat_shiftLeft, hbit, UInt64.toNat_one, Nat.one_shiftLeft,
      Nat.mod_eq_of_lt hlt, Nat.and_two_pow]
  rw [Ne, ← UInt64.toNat_inj, hnat]
  rcases packed.toNat.testBit (bit.toNat % 64) with _ | _
  · simp
  · simp

/-- Where the shift is defined the decoder tests every entry under the key. -/
theorem bitDecoder_of_ok {overflowChecks : Bool} {bit : UInt8} {mask : UInt64}
    (hmask : oneShiftedBy overflowChecks bit = .ok mask) (key : String) :
    ∀ l, bitDecoder overflowChecks key bit l
      = .ok (l.any fun kv => kv.1 = key && (parseU64 kv.2).any fun packed => packed &&& mask ≠ 0)
  | [] => rfl
  | (k, v) :: rest => by
    have ih := bitDecoder_of_ok hmask key rest
    unfold bitDecoder
    rw [ih, hmask, List.any_cons]
    by_cases hk : k = key
    · rcases parseU64 v with _ | packed
      · simp [hk]
      · by_cases hset : packed &&& mask = 0
        · simp [hk, hset]
        · simp [hk, hset]
    · simp [hk]

/-- Where the shift panics, so does the decoder, at the first number under the key. -/
theorem bitDecoder_of_panic {overflowChecks : Bool} {bit : UInt8}
    (hmask : oneShiftedBy overflowChecks bit = .stop .panic) (key : String) :
    ∀ l, bitDecoder overflowChecks key bit l
      = if l.any fun kv => kv.1 = key && (parseU64 kv.2).isSome then .stop .panic else .ok false
  | [] => rfl
  | (k, v) :: rest => by
    have ih := bitDecoder_of_panic hmask key rest
    unfold bitDecoder
    rw [ih, hmask, List.any_cons]
    by_cases hk : k = key
    · rw [if_pos hk, decide_eq_true hk, Bool.true_and]
      rcases parseU64 v with _ | packed
      · rfl
      · rfl
    · rw [if_neg hk, decide_eq_false hk, Bool.false_and, Bool.false_or]

/-! ## Entries that read as a `uint` under a key -/

/-- The entry is the `uint` `n` under `key`. -/
def Holds (key : String) (n : UInt64) (e : TealEntry) : Prop :=
  e.key = utf8 key ∧ e.value = .uint n

/-- The entry reads as the number `n` under `key`, but is a byte string of digits, or stands
under a key that is not UTF-8 and has `key` as its base64 text. -/
def Impostor (b64 : Base64) (key : String) (n : UInt64) (e : TealEntry) : Prop :=
  numberOf e.value = some n ∧
    ((e.key = utf8 key ∧ ∃ b, e.value = .bytes b) ∨
      (fromUtf8 e.key = none ∧ b64.encode e.key = key))

/-- The flat form of the entry is a number under `key`. -/
def ReadsAs (b64 : Base64) (key : String) (n : UInt64) (e : TealEntry) : Prop :=
  keyText b64 e.key = key ∧ numberOf e.value = some n

theorem keyText_eq_iff {b64 : Base64} {k : Bytes} {key : String} :
    keyText b64 k = key ↔ k = utf8 key ∨ (fromUtf8 k = none ∧ b64.encode k = key) := by
  unfold keyText
  rcases hk : fromUtf8 k with _ | s
  · constructor
    · exact fun h => Or.inr ⟨rfl, h⟩
    · rintro (rfl | ⟨-, h⟩)
      · exact absurd hk (by simp)
      · exact h
  · have hs : utf8 s = k := fromUtf8_eq_some_iff.mp hk
    constructor
    · rintro rfl
      exact Or.inl hs.symm
    · rintro (rfl | ⟨h, -⟩)
      · exact utf8_injective hs
      · exact absurd h (by simp)

theorem readsAs_iff {b64 : Base64} {key : String} {n : UInt64} {e : TealEntry} :
    ReadsAs b64 key n e ↔ Holds key n e ∨ Impostor b64 key n e := by
  unfold ReadsAs
  rw [keyText_eq_iff]
  constructor
  · rintro ⟨hkey | hbase, hn⟩
    · rcases hv : e.value with m | b
      · -- a `uint` reads as itself
        rw [hv] at hn
        have hm : m = n := Option.some.inj hn
        exact Or.inl ⟨hkey, by rw [hv, hm]⟩
      · exact Or.inr ⟨hn, Or.inl ⟨hkey, b, hv⟩⟩
    · exact Or.inr ⟨hn, Or.inr hbase⟩
  · rintro (⟨hkey, hv⟩ | ⟨hn, ⟨hkey, -⟩ | hbase⟩)
    · exact ⟨Or.inl hkey, by rw [hv]; rfl⟩
    · exact ⟨Or.inl hkey, hn⟩
    · exact ⟨Or.inr hbase, hn⟩

/-- The state holds a `uint` under `key` with the bit set. -/
def HasBit (st : LocalState) (key : String) (bit : ℕ) : Prop :=
  ∃ e ∈ st.entries, ∃ n, Holds key n e ∧ n.toNat.testBit bit = true

/-- A `uint` has no bit past 63. -/
theorem HasBit.lt {st : LocalState} {key : String} {bit : ℕ} (h : HasBit st key bit) :
    bit < 64 := by
  obtain ⟨-, -, n, -, hbit⟩ := h
  by_contra hge
  have hlt : n.toNat < 2 ^ bit :=
    lt_of_lt_of_le n.toNat_lt (Nat.pow_le_pow_right (by decide) (by omega))
  rw [Nat.testBit_lt_two_pow hlt] at hbit
  exact absurd hbit (by decide)

/-- The flat form of a state as the decoder sees it: some entry reads as a number that meets `p`. -/
theorem any_flat_iff {b64 : Base64} {st : LocalState} {key : String} {p : UInt64 → Bool} :
    ((st.entries.map (TealEntry.flat b64)).any fun kv =>
        kv.1 = key && (parseU64 kv.2).any p) = true
      ↔ ∃ e ∈ st.entries, ∃ n, ReadsAs b64 key n e ∧ p n = true := by
  rw [List.any_map, List.any_eq_true]
  refine exists_congr fun e => and_congr_right fun _ => ?_
  have hnumber : parseU64 (e.flat b64).2 = numberOf e.value := parseU64_text e.value
  show (decide (keyText b64 e.key = key) && (parseU64 (e.flat b64).2).any p) = true ↔ _
  rw [hnumber, Bool.and_eq_true, decide_eq_true_eq, Option.any_eq_true]
  constructor
  · rintro ⟨hkey, n, hn, hp⟩
    exact ⟨n, ⟨hkey, hn⟩, hp⟩
  · rintro ⟨n, ⟨hkey, hn⟩, hp⟩
    exact ⟨hkey, n, hn, hp⟩

/-! ## Failing closed -/

/-- The decoder does not panic, and admits exactly the states that hold the bit. -/
def FailsClosed (overflowChecks : Bool) (b64 : Base64) (form : BytesForm) (st : LocalState)
    (key : String) (bit : UInt8) : Prop :=
  bitDecoder overflowChecks key bit (decodeStateEntries b64 (st.toJson b64 form)) ≠ .stop .panic ∧
    (bitDecoder overflowChecks key bit (decodeStateEntries b64 (st.toJson b64 form)) = .ok true ↔
      HasBit st key bit.toNat)

/-- No impostor has the bit unless a genuine entry has it; and for a bit past 63 no entry
reads as a number under the key, or none with the wrapped bit where the shift wraps. -/
structure Unconfused (overflowChecks : Bool) (b64 : Base64) (st : LocalState) (key : String)
    (bit : UInt8) : Prop where
  no_impostor : bit < 64 → ∀ e ∈ st.entries, ∀ n, Impostor b64 key n e →
    n.toNat.testBit bit.toNat = true → HasBit st key bit.toNat
  no_shift : 64 ≤ bit → ∀ e ∈ st.entries, ∀ n, ReadsAs b64 key n e →
    overflowChecks = false ∧ n.toNat.testBit (bit.toNat % 64) = false

variable {overflowChecks : Bool} {b64 : Base64} {form : BytesForm} {st : LocalState}
  {key : String} {bit : UInt8}

/-- What the decoder admits where the shift is defined. -/
theorem bitDecoder_ok_true_iff (hshift : ¬ (overflowChecks = true ∧ 64 ≤ bit)) :
    bitDecoder overflowChecks key bit (decodeStateEntries b64 (st.toJson b64 form)) = .ok true ↔
      ∃ e ∈ st.entries, ∃ n, ReadsAs b64 key n e ∧ n.toNat.testBit (bit.toNat % 64) = true := by
  have hmask : oneShiftedBy overflowChecks bit = .ok (1 <<< bit.toUInt64) := by
    unfold oneShiftedBy
    rw [if_neg hshift]
  rw [decodeStateEntries_toJson, bitDecoder_of_ok hmask, Outcome.ok.injEq, any_flat_iff]
  refine exists_congr fun e => and_congr_right fun _ => exists_congr fun n => ?_
  rw [decide_eq_true_eq, and_one_shift_ne_zero_iff]

theorem bitDecoder_no_panic (hshift : ¬ (overflowChecks = true ∧ 64 ≤ bit)) :
    bitDecoder overflowChecks key bit (decodeStateEntries b64 (st.toJson b64 form))
      ≠ .stop .panic := by
  have hmask : oneShiftedBy overflowChecks bit = .ok (1 <<< bit.toUInt64) := by
    unfold oneShiftedBy
    rw [if_neg hshift]
  rw [bitDecoder_of_ok hmask]
  simp

/-- Where the shift panics, the decoder panics exactly when some entry is a number under the
key, and admits nobody. -/
theorem bitDecoder_past (hchecks : overflowChecks = true) (hbit : 64 ≤ bit) :
    (bitDecoder overflowChecks key bit (decodeStateEntries b64 (st.toJson b64 form)) = .stop .panic ↔
      ∃ e ∈ st.entries, ∃ n, ReadsAs b64 key n e) ∧
    bitDecoder overflowChecks key bit (decodeStateEntries b64 (st.toJson b64 form)) ≠ .ok true := by
  have hmask : oneShiftedBy overflowChecks bit = .stop .panic := by
    unfold oneShiftedBy
    rw [if_pos ⟨hchecks, hbit⟩]
  have hany := @any_flat_iff b64 st key fun _ => true
  simp only [Option.any_true, and_true] at hany
  rw [decodeStateEntries_toJson, bitDecoder_of_panic hmask, ← hany]
  split_ifs with h
  · exact ⟨by simp [h], by simp⟩
  · refine ⟨by simp [h], fun h' => ?_⟩
    exact absurd (Outcome.ok.inj h') (by decide)

/-- The decoder fails closed exactly on the states whose flat form is not confused. -/
theorem bitDecoder_failsClosed_iff (overflowChecks : Bool) (b64 : Base64) (form : BytesForm)
    (st : LocalState) (key : String) (bit : UInt8) :
    FailsClosed overflowChecks b64 form st key bit ↔
      Unconfused overflowChecks b64 st key bit := by
  have hholds : ∀ {e : TealEntry} {n : UInt64}, Holds key n e → ReadsAs b64 key n e :=
    fun h => readsAs_iff.mpr (Or.inl h)
  unfold FailsClosed
  rcases Nat.lt_or_ge bit.toNat 64 with hlt | hge
  · have hbit : bit < 64 := hlt
    have hshift : ¬ (overflowChecks = true ∧ 64 ≤ bit) :=
      fun h => absurd (show 64 ≤ bit.toNat from h.2) (by omega)
    rw [bitDecoder_ok_true_iff hshift, Nat.mod_eq_of_lt hlt]
    constructor
    · rintro ⟨-, hiff⟩
      refine ⟨fun _ e he n himp hset => ?_, fun hge' => absurd ⟨?_, hge'⟩ hshift⟩
      · exact hiff.mp ⟨e, he, n, readsAs_iff.mpr (Or.inr himp), hset⟩
      · exact absurd (show 64 ≤ bit.toNat from hge') (by omega)
    · intro h
      refine ⟨bitDecoder_no_panic hshift, ?_, ?_⟩
      · rintro ⟨e, he, n, hreads, hset⟩
        -- an entry that reads as the `uint` is the `uint`, or an impostor
        rcases readsAs_iff.mp hreads with hhold | himp
        · exact ⟨e, he, n, hhold, hset⟩
        · exact h.no_impostor hbit e he n himp hset
      · rintro ⟨e, he, n, hhold, hset⟩
        exact ⟨e, he, n, hholds hhold, hset⟩
  · have hbit : 64 ≤ bit := hge
    have hnobit : ¬ HasBit st key bit.toNat := fun h => absurd h.lt (by omega)
    rcases hchecks : overflowChecks with _ | _
    · have hshift : ¬ (false = true ∧ 64 ≤ bit) := fun h => absurd h.1 (by decide)
      rw [bitDecoder_ok_true_iff hshift]
      constructor
      · rintro ⟨-, hiff⟩
        refine ⟨fun hlt => absurd (show bit.toNat < 64 from hlt) (by omega),
          fun _ e he n hreads => ⟨rfl, ?_⟩⟩
        by_contra hset
        exact hnobit (hiff.mp ⟨e, he, n, hreads, by simpa using hset⟩)
      · intro h
        refine ⟨bitDecoder_no_panic hshift, ?_, fun hhas => absurd hhas hnobit⟩
        rintro ⟨e, he, n, hreads, hset⟩
        have hclear := (h.no_shift hbit e he n hreads).2
        rw [hset] at hclear
        exact absurd hclear (by decide)
    · obtain ⟨hpanic, hnot⟩ := @bitDecoder_past true b64 form st key bit rfl hbit
      constructor
      · rintro ⟨hno, -⟩
        refine ⟨fun hlt => absurd (show bit.toNat < 64 from hlt) (by omega),
          fun _ e he n hreads => ?_⟩
        exact absurd (hpanic.mpr ⟨e, he, n, hreads⟩) hno
      · intro h
        refine ⟨fun hp => ?_, fun hok => absurd hok hnot, fun hhas => absurd hhas hnobit⟩
        obtain ⟨e, he, n, hreads⟩ := hpanic.mp hp
        exact absurd (h.no_shift hbit e he n hreads).1 (by decide)

/-- A byte string `4` under the key is taken for a `uint` with bit 2 set. -/
theorem bitDecoder_admits_digits :
    ¬ FailsClosed true Base64.standard .text
      ⟨[⟨utf8 "allow", .bytes (utf8 "4")⟩], by simp⟩ "allow" 2 := by
  intro h
  have hadmits : bitDecoder true "allow" 2 (decodeStateEntries Base64.standard
      (LocalState.toJson Base64.standard .text ⟨[⟨utf8 "allow", .bytes (utf8 "4")⟩], by simp⟩))
      = .ok true := by
    rw [decodeStateEntries_toJson]
    decide +kernel
  obtain ⟨e, he, n, hhold, -⟩ := h.2.mp hadmits
  rw [List.mem_singleton.mp he] at hhold
  exact absurd hhold.2 (by simp)

end BlockchainOps.Tls
