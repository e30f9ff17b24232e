import Mathlib.Data.List.Nodup
import BlockchainOps.Algo.Address
import BlockchainOps.Lib.Regroup
import BlockchainOps.Lib.Text

/-!
# Mnemonics of arbitrary length

The bytes are packed little-endian into 11-bit groups that index a word list of 2048 words,
followed by a checksum word from the first 11 bits of the SHA-512/256 digest. The word list and the
digest are parameters.
-/

namespace BlockchainOps.AccountVault

open Regroup Text

/-! ## Word lists -/

/-- A word list: 2048 distinct words, none of them blank or with white space in it. -/
structure WordList where
  words : List String
  length_eq : words.length = 2048
  nodup : words.Nodup
  nonblank : ∀ w ∈ words, w.toList ≠ [] ∧ ∀ c ∈ w.toList, isWhitespace c = false

/-- The word with an 11-bit index. -/
def WordList.word (wl : WordList) (i : ℕ) : String := (wl.words[i]?).getD ""

/-! ## Packing -/

def bitsPerWord : ℕ := 11

/-- Take in one byte, and give out a group when there are enough bits for one. -/
def toU11Step (s : Packer) (b : UInt8) : Packer :=
  let s := s.push 32 8 b.toNat
  if bitsPerWord ≤ s.bitCount then s.emit bitsPerWord else s

/-- Pack bytes into 11-bit groups, the final one padded with zeros. -/
def toU11 (bytes : Bytes) : List ℕ := (bytes.foldl toU11Step .init).finish bitsPerWord

/-- Take in one group, and give out bytes while there are enough bits. -/
def toBytesStep (s : Packer) (n : ℕ) : Packer :=
  let s := s.push 32 bitsPerWord n
  s.drain 8 s.bitCount

/-- Unpack 11-bit groups into bytes; the final byte may be padding. -/
def toBytes (nums : List ℕ) : Bytes :=
  ((nums.foldl toBytesStep .init).finish 8).map UInt8.ofNat

/-! ## Mnemonics -/

inductive MnemonicError
  | empty
  | notInList (word : String)
  | tooShort (decoded expected : ℕ)
  | checksumMismatch
deriving DecidableEq, Repr

/-- The `Display` form. -/
def MnemonicError.display : MnemonicError → String
  | empty => "empty mnemonic"
  | notInList word => s!"word not in list: {word}"
  | tooShort decoded expected => s!"mnemonic decodes to {decoded} bytes, expected {expected}"
  | checksumMismatch => "mnemonic checksum mismatch"

variable (wl : WordList) (sha512_256 : Bytes → Bytes)

/-- The word for the first 11 bits of the digest. -/
def checksumWord (data : Bytes) : String :=
  wl.word (((toU11 ((sha512_256 data).take 2))[0]?).getD 0)

/-- The words of the bytes, and the checksum word. -/
def mnemonicWords (bytes : Bytes) : List String :=
  (toU11 bytes).map wl.word ++ [checksumWord wl sha512_256 bytes]

/-- Encode bytes as a mnemonic. -/
def bytesToMnemonic (bytes : Bytes) : String :=
  String.intercalate " " (mnemonicWords wl sha512_256 bytes)

/-- The index of a word. -/
def wordIndex (w : String) : Except MnemonicError ℕ :=
  match wl.words.idxOf? w with
  | some n => .ok n
  | none => .error (.notInList w)

/-- Decode a mnemonic into `expectedLen` bytes, verifying the checksum. -/
def mnemonicToBytes (mnemonic : String) (expectedLen : ℕ) : Except MnemonicError Bytes :=
  let parts := splitWhitespace mnemonic
  match parts.getLast? with
  | none => .error .empty
  | some check => do
    let nums ← parts.dropLast.mapM (wordIndex wl)
    let bytes := toBytes nums
    if bytes.length < expectedLen then .error (.tooShort bytes.length expectedLen)
    else if check ≠ checksumWord wl sha512_256 (bytes.take expectedLen) then
      .error .checksumMismatch
    else .ok (bytes.take expectedLen)

variable {wl} {sha512_256}

/-! ## What packing gives -/

theorem toU11Step_packed {ds : List ℕ} {s : Packer} (h : Packed 8 bitsPerWord ds s)
    (hcount : s.bitCount < bitsPerWord) (b : UInt8) :
    Packed 8 bitsPerWord (ds ++ [b.toNat]) (toU11Step s b) ∧
      (toU11Step s b).bitCount < bitsPerWord := by
  have hpushed : Packed _ _ _ (s.push 32 8 b.toNat) := h.push b.toNat_lt (by
    unfold bitsPerWord at hcount
    omega)
  unfold toU11Step
  by_cases hfull : bitsPerWord ≤ (s.push 32 8 b.toNat).bitCount
  · simp only [if_pos hfull]
    refine ⟨hpushed.emit hfull, ?_⟩
    show s.bitCount + 8 - bitsPerWord < bitsPerWord
    unfold bitsPerWord at hcount ⊢
    omega
  · simp only [if_neg hfull]
    exact ⟨hpushed, by omega⟩

theorem toU11_packed (bytes : Bytes) :
    Packed 8 bitsPerWord (bytes.map UInt8.toNat) (bytes.foldl toU11Step .init) ∧
      (bytes.foldl toU11Step .init).bitCount < bitsPerWord := by
  induction bytes using List.reverseRecOn with
  | nil => exact ⟨Packed.init _ _, by decide⟩
  | append_singleton bytes b ih =>
    rw [List.foldl_append, List.map_append]
    exact toU11Step_packed ih.1 ih.2 b

/-- `toU11` regroups the bits of the bytes. -/
theorem toU11_regrouped (bytes : Bytes) :
    Regrouped 8 bitsPerWord (bytes.map UInt8.toNat) (toU11 bytes) :=
  (toU11_packed bytes).1.finish (toU11_packed bytes).2

theorem toBytes_packed {nums : List ℕ} (h : ∀ n ∈ nums, n < 2 ^ bitsPerWord) :
    Packed bitsPerWord 8 nums (nums.foldl toBytesStep .init) ∧
      (nums.foldl toBytesStep .init).bitCount < 8 := by
  induction nums using List.reverseRecOn with
  | nil => exact ⟨Packed.init _ _, by decide⟩
  | append_singleton nums n ih =>
    obtain ⟨hpacked, hcount⟩ := ih fun m hm => h m (List.mem_append_left _ hm)
    rw [List.foldl_append]
    have hpushed : Packed _ _ _ (Packer.push 32 bitsPerWord _ n) := hpacked.push (h n (by simp)) (by
      unfold bitsPerWord
      omega)
    exact hpushed.drain (by omega) (by omega)

/-- `toBytes` regroups the bits of the groups. -/
theorem toBytes_regrouped {nums : List ℕ} (h : ∀ n ∈ nums, n < 2 ^ bitsPerWord) :
    Regrouped bitsPerWord 8 nums ((toBytes nums).map UInt8.toNat) := by
  have hregrouped := (toBytes_packed h).1.finish (toBytes_packed h).2
  have hbytes : (toBytes nums).map UInt8.toNat = (nums.foldl toBytesStep .init).finish 8 := by
    unfold toBytes
    rw [List.map_map]
    conv_rhs => rw [← List.map_id ((nums.foldl toBytesStep .init).finish 8)]
    refine List.map_congr_left fun x hx => ?_
    show (UInt8.ofNat x).toNat = x
    rw [UInt8.toNat_ofNat', Nat.mod_eq_of_lt (hregrouped.lt x hx)]
  rw [hbytes]
  exact hregrouped

/-- Packed bytes are unpacked, followed by padding. -/
theorem toBytes_toU11 (bytes : Bytes) :
    bytes.length ≤ (toBytes (toU11 bytes)).length ∧
      (toBytes (toU11 bytes)).take bytes.length = bytes := by
  have hbytes : ∀ x ∈ bytes.map UInt8.toNat, x < 2 ^ 8 := by
    intro x hx
    obtain ⟨b, -, rfl⟩ := List.mem_map.mp hx
    exact b.toNat_lt
  obtain ⟨hlen, htake⟩ := (toU11_regrouped bytes).take_eq (by omega) hbytes
    (toBytes_regrouped (toU11_regrouped bytes).lt)
  rw [List.length_map, List.length_map] at hlen
  refine ⟨hlen, ?_⟩
  rw [List.length_map, ← List.map_take] at htake
  exact List.map_injective_iff.mpr (fun x y h => UInt8.toNat_inj.mp h) htake

/-- One group for every 11 bits, the last perhaps not full. -/
theorem length_toU11 (bytes : Bytes) : (toU11 bytes).length = (8 * bytes.length + 10) / 11 := by
  have h := (toU11_regrouped bytes).length_eq (by decide)
  rw [List.length_map] at h
  exact h

/-! ## Words -/

/-- The words of a text are found again. -/
theorem splitWhitespace_intercalate {ws : List String}
    (h : ∀ w ∈ ws, w.toList ≠ [] ∧ ∀ c ∈ w.toList, isWhitespace c = false) :
    splitWhitespace (String.intercalate " " ws) = ws := by
  have hspace : isWhitespace ' ' = true := by decide
  have hsplit : ∀ ls : List (List Char), (∀ l ∈ ls, l ≠ [] ∧ ∀ c ∈ l, isWhitespace c = false) →
      (([' '].intercalate ls).splitOnP isWhitespace).filter (· ≠ []) = ls := by
    intro ls hls
    induction ls with
    | nil => simp
    | cons l ls ih =>
      obtain ⟨hne, hword⟩ := hls l List.mem_cons_self
      have hrest := ih fun l' hl' => hls l' (List.mem_cons_of_mem l hl')
      have hl : (l.splitOnP isWhitespace).filter (· ≠ []) = [l] := by
        rw [List.splitOnP_eq_singleton hword]
        simp [hne]
      rcases ls with _ | ⟨l', ls⟩
      · simpa using hl
      · rw [List.intercalate_cons_cons, List.append_assoc, List.singleton_append,
          List.splitOnP_append_cons _ _ hspace, List.filter_append, hl, hrest]
        rfl
  have hlists : ∀ l ∈ ws.map String.toList, l ≠ [] ∧ ∀ c ∈ l, isWhitespace c = false := by
    intro l hl
    obtain ⟨w, hw, rfl⟩ := List.mem_map.mp hl
    exact h w hw
  unfold splitWhitespace
  rw [String.toList_intercalate]
  show (((([' '] : List Char).intercalate (ws.map String.toList)).splitOnP isWhitespace).filter
    (· ≠ [])).map String.ofList = ws
  rw [hsplit _ hlists, List.map_map]
  conv_rhs => rw [← List.map_id ws]
  exact List.map_congr_left fun w _ => String.ofList_toList

namespace WordList

theorem getElem?_of_lt {i : ℕ} (h : i < 2 ^ bitsPerWord) :
    wl.words[i]? = some (wl.word i) := by
  have hlt : i < wl.words.length := by
    rw [wl.length_eq]
    exact h
  simp [word, List.getElem?_eq_getElem hlt]

theorem word_mem {i : ℕ} (h : i < 2 ^ bitsPerWord) : wl.word i ∈ wl.words :=
  List.mem_of_getElem? (getElem?_of_lt h)

/-- A word leads back to its index. -/
theorem wordIndex_word {i : ℕ} (h : i < 2 ^ bitsPerWord) : wordIndex wl (wl.word i) = .ok i := by
  obtain ⟨hlt, hget⟩ := List.getElem?_eq_some_iff.mp (@getElem?_of_lt wl i h)
  have hindex : wl.words.idxOf? (wl.word i) = some i := by
    refine List.idxOf?_eq_some_iff.mpr ⟨hlt, hget, fun j hj heq => ?_⟩
    have := (List.Nodup.getElem_inj_iff wl.nodup).mp (heq.trans hget.symm)
    omega
  unfold wordIndex
  rw [hindex]

end WordList

theorem checksumWord_mem (data : Bytes) : checksumWord wl sha512_256 data ∈ wl.words := by
  refine WordList.word_mem ?_
  rcases h : (toU11 ((sha512_256 data).take 2))[0]? with _ | i
  · decide
  · exact (toU11_regrouped _).lt i (List.mem_of_getElem? h)

theorem mem_mnemonicWords {bytes : Bytes} {w : String}
    (h : w ∈ mnemonicWords wl sha512_256 bytes) : w ∈ wl.words := by
  rcases List.mem_append.mp h with hmem | hmem
  · obtain ⟨i, hi, rfl⟩ := List.mem_map.mp hmem
    exact WordList.word_mem ((toU11_regrouped bytes).lt i hi)
  · rw [List.mem_singleton.mp hmem]
    exact checksumWord_mem bytes

/-- The words of a mnemonic are those it was made of. -/
theorem splitWhitespace_bytesToMnemonic (bytes : Bytes) :
    splitWhitespace (bytesToMnemonic wl sha512_256 bytes) = mnemonicWords wl sha512_256 bytes :=
  splitWhitespace_intercalate fun w hw => wl.nonblank w (mem_mnemonicWords hw)

/-- Words that were looked up lead back to their indices. -/
theorem mapM_wordIndex_map {nums : List ℕ} (h : ∀ n ∈ nums, n < 2 ^ bitsPerWord) :
    (nums.map wl.word).mapM (wordIndex wl) = .ok nums := by
  induction nums with
  | nil => rfl
  | cons n nums ih =>
    rw [List.map_cons, List.mapM_cons, WordList.wordIndex_word (h n List.mem_cons_self),
      ih fun m hm => h m (List.mem_cons_of_mem n hm)]
    rfl

/-- What the words with given indices and a checksum word decode to. -/
theorem mnemonicToBytes_intercalate {nums : List ℕ} (h : ∀ n ∈ nums, n < 2 ^ bitsPerWord)
    {check : String} (hcheck : check ∈ wl.words) (expectedLen : ℕ) :
    mnemonicToBytes wl sha512_256 (String.intercalate " " (nums.map wl.word ++ [check])) expectedLen
      = if (toBytes nums).length < expectedLen then
          .error (.tooShort (toBytes nums).length expectedLen)
        else if check ≠ checksumWord wl sha512_256 ((toBytes nums).take expectedLen) then
          .error .checksumMismatch
        else .ok ((toBytes nums).take expectedLen) := by
  have hwords : ∀ w ∈ nums.map wl.word ++ [check], w ∈ wl.words := by
    intro w hw
    rcases List.mem_append.mp hw with hmem | hmem
    · obtain ⟨n, hn, rfl⟩ := List.mem_map.mp hmem
      exact WordList.word_mem (h n hn)
    · rw [List.mem_singleton.mp hmem]
      exact hcheck
  unfold mnemonicToBytes
  rw [splitWhitespace_intercalate fun w hw => wl.nonblank w (hwords w hw)]
  simp only [List.getLast?_concat, List.dropLast_concat, mapM_wordIndex_map h, bind, Except.bind]

/-- A mnemonic decodes to the bytes it was made of. -/
theorem mnemonicToBytes_bytesToMnemonic (bytes : Bytes) :
    mnemonicToBytes wl sha512_256 (bytesToMnemonic wl sha512_256 bytes) bytes.length
      = .ok bytes := by
  obtain ⟨hlen, htake⟩ := toBytes_toU11 bytes
  unfold bytesToMnemonic mnemonicWords
  rw [mnemonicToBytes_intercalate (toU11_regrouped bytes).lt (checksumWord_mem bytes),
    if_neg (by omega), htake, if_neg (by simp)]

end BlockchainOps.AccountVault
