import BlockchainOps.Lib.Wire

/-!
# MessagePack

The part of MessagePack that maps, arrays, texts, byte strings and natural numbers need. A value
starts with a header, which says of what kind it is and gives its number: its value, its number
of bytes, or its number of members. `header` takes the shortest form there is; `readHeader`
accepts every form. A text is kept as its bytes.

The encoding is prefix-free: reading gives back the value that was written and what follows it
(`readValue_encode`), so a whole string decodes to the value it encodes (`decode_encode`).
-/

namespace MessagePack

open Wire

inductive Value
  | uint (n : ℕ)
  | str (utf8 : List UInt8)
  | bin (bytes : List UInt8)
  | array (items : List Value)
  | map (entries : List (Value × Value))

inductive Kind
  | uint
  | str
  | bin
  | array
  | map
deriving DecidableEq, Repr

/-! ## Headers -/

/-- The header of one byte: what is added to the number, and the numbers it is for. -/
def Kind.fix : Kind → Option (ℕ × ℕ)
  | uint => some (0x00, 128)
  | str => some (0xa0, 32)
  | bin => none
  | array => some (0x90, 16)
  | map => some (0x80, 16)

/-- The longer headers: the first byte, and in how many bytes the number follows. -/
def Kind.wide : Kind → List (ℕ × ℕ)
  | uint => [(0xcc, 1), (0xcd, 2), (0xce, 4), (0xcf, 8)]
  | str => [(0xd9, 1), (0xda, 2), (0xdb, 4)]
  | bin => [(0xc4, 1), (0xc5, 2), (0xc6, 4)]
  | array => [(0xdc, 2), (0xdd, 4)]
  | map => [(0xde, 2), (0xdf, 4)]

/-- The first of the longer headers that the number fits. -/
def wideHeader : List (ℕ × ℕ) → ℕ → Option (List UInt8)
  | [], _ => none
  | (code, width) :: rest, n =>
    if n < 256 ^ width then some (UInt8.ofNat code :: beBytes width n) else wideHeader rest n

/-- The shortest header; there is none for a number that no form has room for. -/
def header (kind : Kind) (n : ℕ) : Option (List UInt8) :=
  match kind.fix with
  | some (base, limit) =>
    if n < limit then some [UInt8.ofNat (base + n)] else wideHeader kind.wide n
  | none => wideHeader kind.wide n

/-- The kind and the width of the number after a first byte from `0xc0` on. -/
def wideForm : ℕ → Option (Kind × ℕ)
  | 0xc4 => some (.bin, 1)
  | 0xc5 => some (.bin, 2)
  | 0xc6 => some (.bin, 4)
  | 0xcc => some (.uint, 1)
  | 0xcd => some (.uint, 2)
  | 0xce => some (.uint, 4)
  | 0xcf => some (.uint, 8)
  | 0xd9 => some (.str, 1)
  | 0xda => some (.str, 2)
  | 0xdb => some (.str, 4)
  | 0xdc => some (.array, 2)
  | 0xdd => some (.array, 4)
  | 0xde => some (.map, 2)
  | 0xdf => some (.map, 4)
  | _ => none

def readHeader : List UInt8 → Option (Kind × ℕ × List UInt8)
  | [] => none
  | byte :: rest =>
    let b := byte.toNat
    if b < 0x80 then some (.uint, b, rest)
    else if b < 0x90 then some (.map, b - 0x80, rest)
    else if b < 0xa0 then some (.array, b - 0x90, rest)
    else if b < 0xc0 then some (.str, b - 0xa0, rest)
    else do
      let (kind, width) ← wideForm b
      let (number, rest) ← readExact width rest
      some (kind, beValue number.1, rest)

/-! ## Values -/

mutual

def encode : Value → Option (List UInt8)
  | .uint n => header .uint n
  | .str b => do
    let h ← header .str b.length
    some (h ++ b)
  | .bin b => do
    let h ← header .bin b.length
    some (h ++ b)
  | .array items => do
    let h ← header .array items.length
    let body ← encodeItems items
    some (h ++ body)
  | .map entries => do
    let h ← header .map entries.length
    let body ← encodeEntries entries
    some (h ++ body)

def encodeItems : List Value → Option (List UInt8)
  | [] => some []
  | v :: vs => do
    let b ← encode v
    let bs ← encodeItems vs
    some (b ++ bs)

def encodeEntries : List (Value × Value) → Option (List UInt8)
  | [] => some []
  | (k, v) :: rest => do
    let bk ← encode k
    let bv ← encode v
    let bs ← encodeEntries rest
    some (bk ++ bv ++ bs)

end

/-- Read `n` times. -/
def readMany {α : Type} (read : List UInt8 → Option (α × List UInt8)) :
    ℕ → List UInt8 → Option (List α × List UInt8)
  | 0, b => some ([], b)
  | n + 1, b => do
    let (x, b) ← read b
    let (xs, b) ← readMany read n b
    some (x :: xs, b)

/-- Read a key and a value. -/
def readEntry {α : Type} (read : List UInt8 → Option (α × List UInt8)) (b : List UInt8) :
    Option ((α × α) × List UInt8) := do
  let (k, b) ← read b
  let (v, b) ← read b
  some ((k, v), b)

/-- Read what a header of a kind and a number announces; `read` reads the members. -/
def readPayload (read : List UInt8 → Option (Value × List UInt8)) (kind : Kind) (n : ℕ)
    (b : List UInt8) : Option (Value × List UInt8) :=
  match kind with
  | .uint => some (.uint n, b)
  | .str => (readExact n b).map fun (payload, b) => (.str payload.1, b)
  | .bin => (readExact n b).map fun (payload, b) => (.bin payload.1, b)
  | .array => (readMany read n b).map fun (items, b) => (.array items, b)
  | .map => (readMany (readEntry read) n b).map fun (entries, b) => (.map entries, b)

/-- Read a value that nests no deeper than `fuel`, and leave what follows it. -/
def readValue : ℕ → List UInt8 → Option (Value × List UInt8)
  | 0, _ => none
  | fuel + 1, b => do
    let (kind, n, b) ← readHeader b
    readPayload (readValue fuel) kind n b

/-- The value that a whole byte string encodes. -/
def decode (b : List UInt8) : Option Value :=
  match readValue b.length b with
  | some (v, []) => some v
  | _ => none

/-! ## Reading a header back -/

theorem wideHeader_cases {forms : List (ℕ × ℕ)} {n : ℕ} {h : List UInt8}
    (hh : wideHeader forms n = some h) :
    ∃ form ∈ forms, n < 256 ^ form.2 ∧ h = UInt8.ofNat form.1 :: beBytes form.2 n := by
  induction forms with
  | nil => exact absurd hh (by simp [wideHeader])
  | cons form forms ih =>
    unfold wideHeader at hh
    split_ifs at hh with hfits
    · exact ⟨form, List.mem_cons_self, hfits, (Option.some.inj hh).symm⟩
    · obtain ⟨form', hmem, hrest⟩ := ih hh
      exact ⟨form', List.mem_cons_of_mem form hmem, hrest⟩

/-- What a longer header's first byte says. -/
theorem wideForm_of_mem (kind : Kind) : ∀ form ∈ kind.wide,
    0xc0 ≤ form.1 ∧ form.1 < 256 ∧ wideForm form.1 = some (kind, form.2) := by
  rcases kind with _ | _ | _ | _ | _ <;> decide

theorem readHeader_wide {kind : Kind} {form : ℕ × ℕ} (hform : form ∈ kind.wide) {n : ℕ}
    (hfits : n < 256 ^ form.2) (rest : List UInt8) :
    readHeader (UInt8.ofNat form.1 :: beBytes form.2 n ++ rest) = some (kind, n, rest) := by
  obtain ⟨hlow, hhigh, hkind⟩ := wideForm_of_mem kind form hform
  have hcode : (UInt8.ofNat form.1).toNat = form.1 := Nat.mod_eq_of_lt hhigh
  have hnumber := readExact_append (⟨beBytes form.2 n, length_beBytes form.2 n⟩ : Field form.2) rest
  show readHeader (UInt8.ofNat form.1 :: (beBytes form.2 n ++ rest)) = _
  unfold readHeader
  dsimp only
  rw [hcode, if_neg (by omega), if_neg (by omega), if_neg (by omega), if_neg (by omega), hkind]
  show (readExact form.2 (beBytes form.2 n ++ rest) >>= _) = _
  rw [hnumber]
  show some (kind, beValue (beBytes form.2 n), rest) = _
  rw [beValue_beBytes hfits]

theorem readHeader_fix {kind : Kind} {base limit n : ℕ} (hfix : kind.fix = some (base, limit))
    (hn : n < limit) (rest : List UInt8) :
    readHeader (UInt8.ofNat (base + n) :: rest) = some (kind, n, rest) := by
  have hbyte : base + limit ≤ 256 → (UInt8.ofNat (base + n)).toNat = base + n :=
    fun h => Nat.mod_eq_of_lt (by omega)
  unfold readHeader
  dsimp only
  rcases kind with _ | _ | _ | _ | _
  case bin => exact absurd hfix (by simp [Kind.fix])
  all_goals
    obtain ⟨rfl, rfl⟩ := Prod.mk.inj (Option.some.inj hfix)
    rw [hbyte (by decide)]
  case uint => rw [if_pos (by omega), Nat.zero_add]
  case map => rw [if_neg (by omega), if_pos (by omega), Nat.add_sub_cancel_left]
  case array =>
    rw [if_neg (by omega), if_neg (by omega), if_pos (by omega), Nat.add_sub_cancel_left]
  case str =>
    rw [if_neg (by omega), if_neg (by omega), if_neg (by omega), if_pos (by omega),
      Nat.add_sub_cancel_left]

/-- A header is read back, whatever follows it. -/
theorem readHeader_header {kind : Kind} {n : ℕ} {h : List UInt8} (hh : header kind n = some h)
    (rest : List UInt8) : readHeader (h ++ rest) = some (kind, n, rest) := by
  have hwide : wideHeader kind.wide n = some h → readHeader (h ++ rest) = some (kind, n, rest) := by
    intro hw
    obtain ⟨form, hform, hfits, rfl⟩ := wideHeader_cases hw
    exact readHeader_wide hform hfits rest
  unfold header at hh
  split at hh
  · rename_i base limit hfix
    split_ifs at hh with hn
    · rw [← Option.some.inj hh]
      exact readHeader_fix hfix hn rest
    · exact hwide hh
  · exact hwide hh

/-- A header is at least one byte. -/
theorem length_header_pos {kind : Kind} {n : ℕ} {h : List UInt8} (hh : header kind n = some h) :
    0 < h.length := by
  rcases h with _ | ⟨byte, h⟩
  · exact absurd (readHeader_header hh []) (by simp [readHeader])
  · exact Nat.succ_pos _

/-! ## Reading a value back -/

/-- After a header comes what it announces. -/
theorem readValue_header {kind : Kind} {n : ℕ} {h : List UInt8} (hh : header kind n = some h)
    (fuel : ℕ) (tail : List UInt8) :
    readValue (fuel + 1) (h ++ tail) = readPayload (readValue fuel) kind n tail := by
  unfold readValue
  rw [readHeader_header hh]
  rfl

mutual

/-- A value is read back, whatever follows it. -/
theorem readValue_encode : ∀ {v : Value} {b : List UInt8} {fuel : ℕ} (rest : List UInt8),
    encode v = some b → b.length ≤ fuel → readValue fuel (b ++ rest) = some (v, rest)
  | .uint n, b, fuel, rest, hb, hfuel => by
    have hh : header .uint n = some b := hb
    have hpos := length_header_pos hh
    obtain ⟨fuel, rfl⟩ := Nat.exists_eq_succ_of_ne_zero (show fuel ≠ 0 by omega)
    rw [readValue_header hh]
    rfl
  | .str payload, b, fuel, rest, hb, hfuel => by
    obtain ⟨h, hh, hb⟩ := Option.bind_eq_some_iff.mp hb
    have hpos := length_header_pos hh
    rw [← Option.some.inj hb, List.length_append] at hfuel
    obtain ⟨fuel, rfl⟩ := Nat.exists_eq_succ_of_ne_zero (show fuel ≠ 0 by omega)
    have hpayload := readExact_append (⟨payload, rfl⟩ : Field payload.length) rest
    rw [← Option.some.inj hb, List.append_assoc, readValue_header hh, readPayload, hpayload]
    rfl
  | .bin payload, b, fuel, rest, hb, hfuel => by
    obtain ⟨h, hh, hb⟩ := Option.bind_eq_some_iff.mp hb
    have hpos := length_header_pos hh
    rw [← Option.some.inj hb, List.length_append] at hfuel
    obtain ⟨fuel, rfl⟩ := Nat.exists_eq_succ_of_ne_zero (show fuel ≠ 0 by omega)
    have hpayload := readExact_append (⟨payload, rfl⟩ : Field payload.length) rest
    rw [← Option.some.inj hb, List.append_assoc, readValue_header hh, readPayload, hpayload]
    rfl
  | .array items, b, fuel, rest, hb, hfuel => by
    obtain ⟨h, hh, hb⟩ := Option.bind_eq_some_iff.mp hb
    obtain ⟨body, hbody, hb⟩ := Option.bind_eq_some_iff.mp hb
    have hpos := length_header_pos hh
    rw [← Option.some.inj hb, List.length_append] at hfuel
    obtain ⟨fuel, rfl⟩ := Nat.exists_eq_succ_of_ne_zero (show fuel ≠ 0 by omega)
    have hitems := readMany_encodeItems rest hbody (show body.length ≤ fuel by omega)
    rw [← Option.some.inj hb, List.append_assoc, readValue_header hh, readPayload, hitems]
    rfl
  | .map entries, b, fuel, rest, hb, hfuel => by
    obtain ⟨h, hh, hb⟩ := Option.bind_eq_some_iff.mp hb
    obtain ⟨body, hbody, hb⟩ := Option.bind_eq_some_iff.mp hb
    have hpos := length_header_pos hh
    rw [← Option.some.inj hb, List.length_append] at hfuel
    obtain ⟨fuel, rfl⟩ := Nat.exists_eq_succ_of_ne_zero (show fuel ≠ 0 by omega)
    have hentries := readMany_encodeEntries rest hbody (show body.length ≤ fuel by omega)
    rw [← Option.some.inj hb, List.append_assoc, readValue_header hh, readPayload, hentries]
    rfl

theorem readMany_encodeItems : ∀ {vs : List Value} {b : List UInt8} {fuel : ℕ}
    (rest : List UInt8), encodeItems vs = some b → b.length ≤ fuel →
      readMany (readValue fuel) vs.length (b ++ rest) = some (vs, rest)
  | [], b, fuel, rest, hb, hfuel => by
    rw [← Option.some.inj hb]
    rfl
  | v :: vs, b, fuel, rest, hb, hfuel => by
    obtain ⟨b₁, hb₁, hb⟩ := Option.bind_eq_some_iff.mp hb
    obtain ⟨b₂, hb₂, hb⟩ := Option.bind_eq_some_iff.mp hb
    rw [← Option.some.inj hb, List.length_append] at hfuel
    have hfirst := readValue_encode (b₂ ++ rest) hb₁ (show b₁.length ≤ fuel by omega)
    have hrest := readMany_encodeItems rest hb₂ (show b₂.length ≤ fuel by omega)
    rw [← Option.some.inj hb, List.append_assoc, List.length_cons, readMany, hfirst]
    show (readMany (readValue fuel) vs.length (b₂ ++ rest) >>= _) = _
    rw [hrest]
    rfl

theorem readMany_encodeEntries : ∀ {entries : List (Value × Value)} {b : List UInt8} {fuel : ℕ}
    (rest : List UInt8), encodeEntries entries = some b → b.length ≤ fuel →
      readMany (readEntry (readValue fuel)) entries.length (b ++ rest) = some (entries, rest)
  | [], b, fuel, rest, hb, hfuel => by
    rw [← Option.some.inj hb]
    rfl
  | (k, v) :: entries, b, fuel, rest, hb, hfuel => by
    obtain ⟨bk, hbk, hb⟩ := Option.bind_eq_some_iff.mp hb
    obtain ⟨bv, hbv, hb⟩ := Option.bind_eq_some_iff.mp hb
    obtain ⟨bs, hbs, hb⟩ := Option.bind_eq_some_iff.mp hb
    rw [← Option.some.inj hb, List.length_append, List.length_append] at hfuel
    have hkey := readValue_encode (bv ++ (bs ++ rest)) hbk (show bk.length ≤ fuel by omega)
    have hvalue := readValue_encode (bs ++ rest) hbv (show bv.length ≤ fuel by omega)
    have hrest := readMany_encodeEntries rest hbs (show bs.length ≤ fuel by omega)
    have hentry : readEntry (readValue fuel) (bk ++ (bv ++ (bs ++ rest)))
        = some ((k, v), bs ++ rest) := by
      unfold readEntry
      rw [hkey]
      show (readValue fuel (bv ++ (bs ++ rest)) >>= _) = _
      rw [hvalue]
      rfl
    rw [← Option.some.inj hb, List.append_assoc, List.append_assoc, List.length_cons, readMany,
      hentry]
    show (readMany (readEntry (readValue fuel)) entries.length (bs ++ rest) >>= _) = _
    rw [hrest]
    rfl

end

/-- What a value is encoded to decodes to it. -/
theorem decode_encode {v : Value} {b : List UInt8} (hb : encode v = some b) :
    decode b = some v := by
  have hread := readValue_encode [] hb le_rfl
  rw [List.append_nil] at hread
  unfold decode
  rw [hread]

/-! ## When there is an encoding -/

theorem isSome_encode_bin (b : List UInt8) :
    (encode (.bin b)).isSome = (header .bin b.length).isSome := by
  show ((header .bin b.length).bind fun h => some (h ++ b)).isSome = _
  rcases header .bin b.length with _ | h <;> rfl

theorem isSome_encode_map (entries : List (Value × Value)) :
    (encode (.map entries)).isSome
      = ((header .map entries.length).isSome && (encodeEntries entries).isSome) := by
  show ((header .map entries.length).bind fun h => (encodeEntries entries).bind fun body =>
    some (h ++ body)).isSome = _
  rcases header .map entries.length with _ | h
  · rfl
  · rcases encodeEntries entries with _ | body <;> rfl

theorem isSome_encodeEntries_cons (k v : Value) (entries : List (Value × Value)) :
    (encodeEntries ((k, v) :: entries)).isSome
      = ((encode k).isSome && (encode v).isSome && (encodeEntries entries).isSome) := by
  show ((encode k).bind fun bk => (encode v).bind fun bv => (encodeEntries entries).bind fun bs =>
    some (bk ++ bv ++ bs)).isSome = _
  rcases encode k with _ | bk
  · rfl
  · rcases encode v with _ | bv
    · rfl
    · rcases encodeEntries entries with _ | bs <;> rfl

end MessagePack
