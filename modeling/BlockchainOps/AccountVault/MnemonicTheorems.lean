import BlockchainOps.AccountVault.Backup

/-!
# What mnemonics decode to

Every mnemonic that `bytesToMnemonic` makes is decoded again, whatever the length of the bytes, and
neither packing loop loses a bit on the way (`mnemonic_roundTrip`). The converse does not hold:
`mnemonicToBytes` cuts what the words hold down to the length it expects, so that it also
accepts words beyond those, and bits in the last word that no byte uses. The mnemonics it
accepts are those it would make itself exactly when they are `Canonical`.
-/

namespace BlockchainOps.AccountVault

open Regroup Text

variable {wl : WordList} {sha512_256 : Bytes → Bytes}

/-! ## Round trip -/

/-- No byte is lost from the buffer of `toU11`. -/
theorem toU11_fits (done : Bytes) (b : UInt8) :
    (done.foldl toU11Step .init).Fits 32 8 b.toNat := by
  obtain ⟨hpacked, hcount⟩ := toU11_packed done
  refine hpacked.fits b.toNat_lt ?_
  unfold bitsPerWord at hcount
  omega

/-- No group is lost from the buffer of `toBytes`. -/
theorem toBytes_fits {done : List ℕ} {n : ℕ} (h : ∀ m ∈ done ++ [n], m < 2 ^ bitsPerWord) :
    (done.foldl toBytesStep .init).Fits 32 bitsPerWord n := by
  obtain ⟨hpacked, hcount⟩ := toBytes_packed fun m hm => h m (List.mem_append_left _ hm)
  refine hpacked.fits (h n (by simp)) ?_
  unfold bitsPerWord
  omega

/-- The digest has the two bytes that the checksum word is taken from. -/
theorem checksum_index (hdigest : ∀ data, (sha512_256 data).length = 32) (data : Bytes) :
    ∃ i, (toU11 ((sha512_256 data).take 2))[0]? = some i ∧ i < wl.words.length := by
  have hlen : (toU11 ((sha512_256 data).take 2)).length = 2 := by
    rw [length_toU11, List.length_take, hdigest]
    rfl
  have hpos : 0 < (toU11 ((sha512_256 data).take 2)).length := by omega
  refine ⟨_, List.getElem?_eq_getElem hpos, ?_⟩
  rw [wl.length_eq]
  exact (toU11_regrouped _).lt _ (List.getElem_mem hpos)

/-- Mnemonics of any length go round. The mnemonic of `n` bytes has a word for every 11 bits,
the last perhaps not full, and a checksum word; it decodes to those bytes. The buffers of both
packing loops hold all the bits they are given, and every index is one of the word list. -/
theorem mnemonic_roundTrip (wl : WordList) (sha512_256 : Bytes → Bytes)
    (hdigest : ∀ data, (sha512_256 data).length = 32) (bytes : Bytes) :
    (splitWhitespace (bytesToMnemonic wl sha512_256 bytes)).length
      = (8 * bytes.length + 10) / 11 + 1 ∧
    mnemonicToBytes wl sha512_256 (bytesToMnemonic wl sha512_256 bytes) bytes.length = .ok bytes ∧
    (∀ i ∈ toU11 bytes, i < wl.words.length) ∧
    (∃ i, (toU11 ((sha512_256 bytes).take 2))[0]? = some i ∧ i < wl.words.length) ∧
    (∀ (done : Bytes) (b : UInt8), (done.foldl toU11Step .init).Fits 32 8 b.toNat) ∧
    (∀ (done : List ℕ) (n : ℕ), (∀ m ∈ done ++ [n], m < wl.words.length) →
      (done.foldl toBytesStep .init).Fits 32 bitsPerWord n) := by
  refine ⟨?_, mnemonicToBytes_bytesToMnemonic bytes, ?_, checksum_index hdigest bytes,
    toU11_fits, ?_⟩
  · rw [splitWhitespace_bytesToMnemonic, mnemonicWords, List.length_append, List.length_map,
      List.length_singleton, length_toU11]
  · intro i hi
    rw [wl.length_eq]
    exact (toU11_regrouped bytes).lt i hi
  · intro done n h
    rw [wl.length_eq] at h
    exact toBytes_fits h

/-- The SHA-512/256 digest of 32 zeros. -/
def zerosDigest : Bytes :=
  [175, 19, 192, 72, 153, 18, 36, 165, 228, 198, 100, 68, 107, 104, 138, 175,
    72, 251, 84, 86, 219, 54, 41, 96, 27, 0, 236, 22, 12, 116, 229, 84]

/-- The key of 32 zeros has 25 words. -/
theorem mnemonic_roundTrip_zeros :
    let digest : Bytes → Bytes := fun _ => zerosDigest
    let zeros : Bytes := List.replicate 32 0
    (splitWhitespace (bytesToMnemonic sampleWords digest zeros)).length = 25 ∧
    mnemonicToBytes sampleWords digest (bytesToMnemonic sampleWords digest zeros) 32
      = .ok zeros := by
  intro digest zeros
  obtain ⟨hlength, hdecodes, -⟩ := mnemonic_roundTrip sampleWords digest (fun _ => by decide) zeros
  have hzeros : zeros.length = 32 := List.length_replicate
  rw [hzeros] at hlength hdecodes
  exact ⟨hlength, hdecodes⟩

/-! ## What is accepted -/

/-- A text with single spaces between its words. -/
def normalized (m : String) : String := String.intercalate " " (splitWhitespace m)

/-- The words of a mnemonic, the checksum word apart, are no more than `n` bytes take, and the
bits of the last one that no byte uses are zero. -/
def Canonical (wl : WordList) (n : ℕ) (m : String) : Prop :=
  ∃ nums, (splitWhitespace m).dropLast.mapM (wordIndex wl) = .ok nums ∧
    nums.length = (8 * n + 10) / 11 ∧ Nat.ofDigits (2 ^ bitsPerWord) nums < (2 ^ 8) ^ n

theorem wordIndex_eq_ok {w : String} {i : ℕ} (h : wordIndex wl w = .ok i) :
    i < 2 ^ bitsPerWord ∧ wl.word i = w := by
  unfold wordIndex at h
  rcases hindex : wl.words.idxOf? w with _ | n
  · rw [hindex] at h
    exact absurd h (by simp)
  · rw [hindex] at h
    obtain rfl : n = i := Except.ok.inj h
    obtain ⟨hlt, hget, -⟩ := List.idxOf?_eq_some_iff.mp hindex
    have hlt' : n < 2 ^ bitsPerWord := by
      rw [wl.length_eq] at hlt
      exact hlt
    refine ⟨hlt', ?_⟩
    have hword : wl.words[n]? = some (wl.word n) := WordList.getElem?_of_lt hlt'
    rw [List.getElem?_eq_getElem hlt, Option.some.injEq] at hword
    exact hword.symm.trans hget

/-- The indices of words lead back to them. -/
theorem mapM_wordIndex_eq_ok {ws : List String} {nums : List ℕ}
    (h : ws.mapM (wordIndex wl) = .ok nums) :
    (∀ n ∈ nums, n < 2 ^ bitsPerWord) ∧ ws = nums.map wl.word := by
  induction ws generalizing nums with
  | nil =>
    obtain rfl : nums = [] := (Except.ok.inj h).symm
    exact ⟨by simp, rfl⟩
  | cons w ws ih =>
    rw [List.mapM_cons] at h
    rcases hw : wordIndex wl w with e | i
    · rw [hw] at h
      exact absurd h (by simp [bind, Except.bind])
    rcases hws : ws.mapM (wordIndex wl) with e | is
    · simp [hw, hws, bind, Except.bind] at h
    · obtain rfl : i :: is = nums := by simpa [hw, hws, bind, Except.bind, pure, Except.pure] using h
      obtain ⟨hlt, hword⟩ := wordIndex_eq_ok hw
      obtain ⟨hrest, hwords⟩ := ih hws
      refine ⟨?_, by rw [List.map_cons, hword, ← hwords]⟩
      intro n hn
      rcases List.mem_cons.mp hn with rfl | hn
      · exact hlt
      · exact hrest n hn

/-- A text is accepted when all its words but the last are in the list and hold enough bytes, and
the last one is the checksum word of those that are taken. -/
theorem mnemonicToBytes_eq_ok {m : String} {n : ℕ} {b : Bytes}
    (h : mnemonicToBytes wl sha512_256 m n = .ok b) :
    ∃ nums, (∀ i ∈ nums, i < 2 ^ bitsPerWord) ∧ n ≤ (toBytes nums).length ∧
      b = (toBytes nums).take n ∧
      splitWhitespace m = nums.map wl.word ++ [checksumWord wl sha512_256 b] := by
  unfold mnemonicToBytes at h
  simp only at h
  rcases hlast : (splitWhitespace m).getLast? with _ | check
  · rw [hlast] at h
    exact absurd h (by simp)
  rw [hlast] at h
  simp only at h
  rcases hnums : (splitWhitespace m).dropLast.mapM (wordIndex wl) with e | nums
  · rw [hnums] at h
    exact absurd h (by simp [bind, Except.bind])
  · simp only [hnums, bind, Except.bind] at h
    split_ifs at h with hshort hcheck
    obtain rfl := Except.ok.inj h
    obtain ⟨hlt, hwords⟩ := mapM_wordIndex_eq_ok hnums
    refine ⟨nums, hlt, by omega, rfl, ?_⟩
    obtain ⟨front, hfront⟩ := List.getLast?_eq_some_iff.mp hlast
    rw [hfront, List.dropLast_concat] at hwords
    rw [hfront, hwords, not_not.mp hcheck]

/-- The groups that bytes were cut from are those they are packed into when there are no more of
them, and no bit is left over. -/
theorem toU11_take_toBytes_iff {nums : List ℕ} (h : ∀ i ∈ nums, i < 2 ^ bitsPerWord) {n : ℕ}
    (hn : n ≤ (toBytes nums).length) :
    toU11 ((toBytes nums).take n) = nums ↔
      nums.length = (8 * n + 10) / 11 ∧ Nat.ofDigits (2 ^ bitsPerWord) nums < (2 ^ 8) ^ n := by
  have hback := toBytes_regrouped h
  have hout := toU11_regrouped ((toBytes nums).take n)
  rw [List.map_take] at hout
  exact Regrouped.take_regrouped_eq_iff (by decide) (by decide) h hback
    (by rw [List.length_map]; exact hn) hout

/-- What an accepted mnemonic decodes to is encoded as the same words exactly when it is canonical.
-/
theorem mnemonicWords_eq_iff {m : String} {n : ℕ} {b : Bytes}
    (h : mnemonicToBytes wl sha512_256 m n = .ok b) :
    mnemonicWords wl sha512_256 b = splitWhitespace m ↔ Canonical wl n m := by
  obtain ⟨nums, hlt, hn, hb, hwords⟩ := mnemonicToBytes_eq_ok h
  have hindices : (splitWhitespace m).dropLast.mapM (wordIndex wl) = .ok nums := by
    rw [hwords, List.dropLast_concat, mapM_wordIndex_map hlt]
  have hcanonical : Canonical wl n m ↔ toU11 b = nums := by
    rw [hb, toU11_take_toBytes_iff hlt hn]
    unfold Canonical
    rw [hindices]
    simp
  rw [hcanonical, hwords, mnemonicWords, List.append_left_inj]
  constructor
  · intro heq
    have hok : ((toU11 b).map wl.word).mapM (wordIndex wl) = .ok (toU11 b) :=
      mapM_wordIndex_map (toU11_regrouped b).lt
    rw [heq, mapM_wordIndex_map hlt] at hok
    exact (Except.ok.inj hok).symm
  · intro heq
    rw [heq]

/-- Texts of the same words are normalized alike. -/
theorem bytesToMnemonic_eq_normalized_iff {m : String} {n : ℕ} {b : Bytes}
    (h : mnemonicToBytes wl sha512_256 m n = .ok b) :
    bytesToMnemonic wl sha512_256 b = normalized m ↔ Canonical wl n m := by
  rw [← mnemonicWords_eq_iff h]
  constructor
  · intro heq
    obtain ⟨nums, hlt, -, -, hwords⟩ := mnemonicToBytes_eq_ok h
    have hmem : ∀ w ∈ splitWhitespace m, w ∈ wl.words := by
      rw [hwords]
      intro w hw
      rcases List.mem_append.mp hw with hw | hw
      · obtain ⟨i, hi, rfl⟩ := List.mem_map.mp hw
        exact WordList.word_mem (hlt i hi)
      · rw [List.mem_singleton.mp hw]
        exact checksumWord_mem b
    calc mnemonicWords wl sha512_256 b
        = splitWhitespace (bytesToMnemonic wl sha512_256 b) :=
          (splitWhitespace_bytesToMnemonic b).symm
      _ = splitWhitespace (normalized m) := by rw [heq]
      _ = splitWhitespace m := splitWhitespace_intercalate fun w hw => wl.nonblank w (hmem w hw)
  · intro heq
    unfold bytesToMnemonic normalized
    rw [heq]

/-- White space around a mnemonic does not matter. -/
theorem mnemonicToBytes_trim (m : String) (n : ℕ) :
    mnemonicToBytes wl sha512_256 (trim m) n = mnemonicToBytes wl sha512_256 m n := by
  unfold mnemonicToBytes
  rw [splitWhitespace_trim]

/-- The page of an account that is printed in the clear carries the key its passphrase encodes. -/
theorem backupPage_account_clear {p : EnvelopePrims} {fastKdf : Bool} {draw : Draw} {name : String}
    {bytes : Bytes} {address passphrase : String} {page : BackupPage}
    (hfields : accountFields p bytes = some (address, passphrase))
    (h : backupPage p wl sha512_256 fastKdf draw name bytes none = .ok page) :
    ∃ key, mnemonicToBytes wl sha512_256 passphrase accountKeyLen = .ok key ∧
      page.mnemonic = bytesToMnemonic wl sha512_256 key := by
  obtain ⟨found, secret, printed, hsecret, hprinted, -, -, hmnemonic⟩ := backupPage_eq_ok h
  obtain ⟨hkind, -⟩ := pageSecret_eq_ok hsecret
  have hsame : secret = printed := Except.ok.inj hprinted
  rcases hkind with ⟨addr, phrase, hfields', hkey⟩ | ⟨hfields', -⟩
  · rw [hfields, Option.some.injEq, Prod.mk.injEq] at hfields'
    refine ⟨printed, ?_, hmnemonic⟩
    rw [hfields'.2, ← hsame, ← mnemonicToBytes_trim]
    exact hkey
  · rw [hfields] at hfields'
    exact absurd hfields' (by simp)

/-- A secret that is printed in the clear is printed as its own mnemonic. -/
theorem backupPage_of_secret {p : EnvelopePrims} {fastKdf : Bool} {draw : Draw} {name : String}
    {bytes secret : Bytes} {address : Option String}
    (h : pageSecret p wl sha512_256 name bytes = .ok (address, secret)) :
    ∃ page, backupPage p wl sha512_256 fastKdf draw name bytes none = .ok page ∧
      page.mnemonic = bytesToMnemonic wl sha512_256 secret := by
  unfold backupPage
  rw [h]
  exact ⟨_, rfl, rfl⟩

/-- An accepted mnemonic is the one of the bytes it decodes to, up to white space, exactly when it
is canonical; and an account that is printed in the clear prints as its own words exactly when its
passphrase is. -/
theorem accepted_canonical_iff (p : EnvelopePrims) (wl : WordList) (sha512_256 : Bytes → Bytes) :
    (∀ m n b, mnemonicToBytes wl sha512_256 m n = .ok b →
      (bytesToMnemonic wl sha512_256 b = normalized m ↔ Canonical wl n m)) ∧
    ∀ fastKdf draw name bytes address passphrase page,
      accountFields p bytes = some (address, passphrase) →
      backupPage p wl sha512_256 fastKdf draw name bytes none = .ok page →
      (splitWhitespace page.mnemonic = splitWhitespace passphrase ↔
        Canonical wl accountKeyLen passphrase) := by
  refine ⟨fun m n b h => bytesToMnemonic_eq_normalized_iff h, ?_⟩
  intro fastKdf draw name bytes address passphrase page hfields h
  obtain ⟨key, hkey, hmnemonic⟩ := backupPage_account_clear hfields h
  rw [hmnemonic, splitWhitespace_bytesToMnemonic]
  exact mnemonicWords_eq_iff hkey

/-- The words with the indices `nums`, with the checksum word of 32 zeros. -/
def zerosMnemonic (nums : List ℕ) : String :=
  String.intercalate " " (nums.map sampleWords.word ++
    [checksumWord sampleWords (fun _ => zerosDigest) (List.replicate 32 0)])

theorem zerosMnemonic_accepted {nums : List ℕ} (h : ∀ i ∈ nums, i < 2 ^ bitsPerWord)
    (hlen : 32 ≤ (toBytes nums).length) (hzeros : (toBytes nums).take 32 = List.replicate 32 0) :
    mnemonicToBytes sampleWords (fun _ => zerosDigest) (zerosMnemonic nums) 32
      = .ok (List.replicate 32 0) := by
  unfold zerosMnemonic
  rw [mnemonicToBytes_intercalate h (checksumWord_mem _), if_neg (by omega), hzeros,
    if_neg (by simp)]

theorem canonical_zerosMnemonic_iff {nums : List ℕ} (h : ∀ i ∈ nums, i < 2 ^ bitsPerWord) :
    Canonical sampleWords 32 (zerosMnemonic nums) ↔
      nums.length = 24 ∧ Nat.ofDigits (2 ^ bitsPerWord) nums < (2 ^ 8) ^ 32 := by
  have hwords : ∀ w ∈ nums.map sampleWords.word ++
      [checksumWord sampleWords (fun _ => zerosDigest) (List.replicate 32 0)],
      w ∈ sampleWords.words := by
    intro w hw
    rcases List.mem_append.mp hw with hw | hw
    · obtain ⟨i, hi, rfl⟩ := List.mem_map.mp hw
      exact WordList.word_mem (h i hi)
    · rw [List.mem_singleton.mp hw]
      exact checksumWord_mem _
  unfold Canonical zerosMnemonic
  rw [splitWhitespace_intercalate fun w hw => sampleWords.nonblank w (hwords w hw),
    List.dropLast_concat, mapM_wordIndex_map h]
  simp

/-- An account file whose passphrase is `passphrase`. -/
def accountPrims (passphrase : String) : EnvelopePrims :=
  { samplePrims with
    fromSlice := fun _ => .ok (.obj [("address", .str "A"), ("passphrase", .str passphrase)]) }

theorem backupPage_accountPrims {m : String} {key : Bytes}
    (h : mnemonicToBytes wl sha512_256 m 32 = .ok key) :
    ∃ page, backupPage (accountPrims m) wl sha512_256 true sampleDraw "a" [] none = .ok page ∧
      page.mnemonic = bytesToMnemonic wl sha512_256 key := by
  have hfields : accountFields (accountPrims m) [] = some ("A", m) := rfl
  have hsecret : pageSecret (accountPrims m) wl sha512_256 "a" [] = .ok (some "A", key) := by
    unfold pageSecret
    rw [hfields]
    simp only [mnemonicToBytes_trim, accountKeyLen, h]
  exact backupPage_of_secret hsecret

/-- The key of 32 zeros has a mnemonic of 24 times the first word. With one more word, or with the
first bit set that no byte uses, the text is accepted as well, and the page is not it. -/
theorem surplus_word_and_padding_accepted :
    let digest : Bytes → Bytes := fun _ => zerosDigest
    let zeros : Bytes := List.replicate 32 0
    let surplus := zerosMnemonic (List.replicate 25 0)
    let padded := zerosMnemonic (List.replicate 23 0 ++ [8])
    mnemonicToBytes sampleWords digest surplus 32 = .ok zeros ∧
    bytesToMnemonic sampleWords digest zeros ≠ normalized surplus ∧
    mnemonicToBytes sampleWords digest padded 32 = .ok zeros ∧
    bytesToMnemonic sampleWords digest zeros ≠ normalized padded ∧
    ∃ page, backupPage (accountPrims surplus) sampleWords digest true sampleDraw "a" [] none
        = .ok page ∧ splitWhitespace page.mnemonic ≠ splitWhitespace surplus := by
  intro digest zeros surplus padded
  have hsurplus : mnemonicToBytes sampleWords digest surplus 32 = .ok zeros :=
    zerosMnemonic_accepted (by decide) (by decide) (by decide)
  have hpadded : mnemonicToBytes sampleWords digest padded 32 = .ok zeros :=
    zerosMnemonic_accepted (by decide) (by decide) (by decide)
  have hlong : ¬ Canonical sampleWords 32 surplus := by
    intro h
    have hlength := ((canonical_zerosMnemonic_iff (by decide)).mp h).1
    exact absurd hlength (by decide)
  have hbits : ¬ Canonical sampleWords 32 padded := by
    intro h
    have hsmall := ((canonical_zerosMnemonic_iff (by decide)).mp h).2
    exact absurd hsmall (by decide)
  refine ⟨hsurplus, fun h => hlong ((bytesToMnemonic_eq_normalized_iff hsurplus).mp h), hpadded,
    fun h => hbits ((bytesToMnemonic_eq_normalized_iff hpadded).mp h), ?_⟩
  obtain ⟨page, hpage, hmnemonic⟩ := backupPage_accountPrims hsurplus
  refine ⟨page, hpage, ?_⟩
  rw [hmnemonic, splitWhitespace_bytesToMnemonic]
  exact fun h => hlong ((mnemonicWords_eq_iff hsurplus).mp h)

end BlockchainOps.AccountVault
