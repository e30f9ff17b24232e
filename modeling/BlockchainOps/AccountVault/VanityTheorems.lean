import BlockchainOps.AccountVault.Account
import BlockchainOps.AccountVault.Backup

/-!
# What a vanity search finds

A thread encodes only the leading bytes of a public key. The encoding of these bytes ends in a
symbol that is padded with zeros, but the prefix ends before it or where the bytes do, so that
the comparison is one with the whole address (`isMatch_iff`). Whatever the threads do in which
order, a seed that is found or about to be recorded matches, and the flag is raised only after a
seed was recorded (`SearchInv`).
-/

namespace BlockchainOps.AccountVault

open Effect Wire

/-! ## Accepted prefixes -/

theorem length_utf8_of_ascii {s : String} (h : ∀ c ∈ s.toList, c.utf8Size = 1) :
    (utf8 s).length = s.toList.length := by
  have hlist : ∀ l : List Char, (∀ c ∈ l, c.utf8Size = 1) →
      (utf8 (String.ofList l)).length = l.length := by
    intro l hl
    induction l with
    | nil => rfl
    | cons c l ih =>
      have hcons : String.ofList (c :: l) = String.singleton c ++ String.ofList l := by
        rw [← String.toList_inj, String.toList_append, String.toList_ofList,
          String.toList_ofList, String.toList_singleton, List.singleton_append]
      have hone : (utf8 (String.singleton c)).length = 1 := by
        rw [← hl c List.mem_cons_self]
        exact String.utf8ByteSize_singleton
      have hrest : (utf8 (String.ofList l)).length = l.length := by
        apply ih
        intro c' hc'
        exact hl c' (List.mem_cons_of_mem c hc')
      rw [hcons, utf8_append, List.length_append, hone, hrest, List.length_cons, Nat.add_comm]
  have hs := hlist s.toList h
  rw [String.ofList_toList] at hs
  exact hs

theorem utf8Size_of_isAddressChar {c : Char} (h : isAddressChar c = true) : c.utf8Size = 1 := by
  have hupper : c.val ≤ 'Z'.val ∨ c.val ≤ '7'.val := by
    simp only [isAddressChar, Bool.or_eq_true, Bool.and_eq_true, decide_eq_true_eq] at h
    rcases h with h | h
    · exact Or.inl h.2
    · exact Or.inr h.2
  rw [Char.utf8Size_eq_one_iff]
  rcases hupper with hle | hle
  · exact UInt32.le_trans hle (by decide)
  · exact UInt32.le_trans hle (by decide)

/-- An accepted prefix is short, and each of its characters is a byte. -/
theorem length_of_normalisePrefix {input pre : String} (h : normalisePrefix input = .ok pre) :
    (utf8 pre).length = pre.toList.length ∧ pre.toList.length ≤ maxPrefixLen := by
  unfold normalisePrefix at h
  simp only at h
  split_ifs at h with hempty hlong
  split at h
  · exact absurd h (by simp)
  · rename_i hgood
    rw [← Except.ok.inj h]
    have hascii : (utf8 (toAsciiUppercase input)).length
        = (toAsciiUppercase input).toList.length := by
      apply length_utf8_of_ascii
      intro c hc
      apply utf8Size_of_isAddressChar
      have hnot := List.find?_eq_none.mp hgood c hc
      simpa using hnot
    refine ⟨hascii, ?_⟩
    omega

/-! ## The fast path -/

theorem length_addressOf (p : AccountPrims) (key : Field 32) :
    (addressOf p key).toList.length = 58 := by
  have hdigest := (p.sha512_256 key.1).2
  have hbytes : (key.1 ++ (p.sha512_256 key.1).1.drop
      ((p.sha512_256 key.1).1.length - checksumLen)).length = 36 := by
    rw [List.length_append, List.length_drop, key.2, hdigest]
    rfl
  show (String.ofList (Base32.Standard.encodeChars _)).toList.length = 58
  rw [String.toList_ofList, Base32.Standard.length_encodeChars, hbytes]
  rfl

/-- The leading bytes decide whether the address starts with the prefix. -/
theorem isMatch_iff {input pre : String} (h : normalisePrefix input = .ok pre) (p : AccountPrims)
    (key : Field 32) :
    (VanitySearch.new pre).isMatch key = true ↔ pre.toList <+: (addressOf p key).toList := by
  obtain ⟨hascii, hshort⟩ := length_of_normalisePrefix h
  unfold maxPrefixLen at hshort
  set digest := (p.sha512_256 key.1).1
  set leading := (VanitySearch.new pre).leadingBytes
  have hleading : leading = (5 * pre.toList.length + 7) / 8 := by
    show ((utf8 pre).length * 5 + 7) / 8 = _
    rw [hascii, Nat.mul_comm]
  have htake : (key.1 ++ digest.drop (digest.length - checksumLen)).take leading
      = key.1.take leading := by
    apply List.take_append_of_le_length
    rw [key.2]
    omega
  have hlong : leading ≤ (key.1 ++ digest.drop (digest.length - checksumLen)).length := by
    rw [List.length_append, key.2]
    omega
  have hbits : 5 * pre.toList.length ≤ 8 * leading := by omega
  have hdecided := Base32.Standard.isPrefix_encodeChars_take hbits hlong
  rw [htake] at hdecided
  unfold VanitySearch.isMatch addressOf
  rw [List.isPrefixOf_iff_prefix]
  show pre.toList <+: (String.ofList (Base32.Standard.encodeChars _)).toList
    ↔ pre.toList <+: (String.ofList (Base32.Standard.encodeChars _)).toList
  rw [String.toList_ofList, String.toList_ofList]
  exact hdecided

/-! ## The threads -/

section Threads

variable {n : ℕ} {p : AccountPrims} {v : VanitySearch} {s t : SearchState n} {i : Fin n}
  {a : SearchAction}

/-- What holds of a thread, given the seed found and the flag: its seed matches, a thread about
to raise the flag has seen a seed recorded, and one that leaves has seen the flag raised. -/
def ThreadInv (p : AccountPrims) (v : VanitySearch) (found : Option Seed) (done : Bool) :
    SearchThread → Prop
  | .locking _ seed => v.isMatch (p.verifyingKey seed) = true
  | .recording _ seed => v.isMatch (p.verifyingKey seed) = true
  | .raising _ => found.isSome = true
  | .leaving _ => done = true
  | .ended => done = true
  | _ => True

/-- What every step preserves. -/
structure SearchInv (p : AccountPrims) (v : VanitySearch) (s : SearchState n) : Prop where
  found_match : ∀ seed, s.found = some seed → v.isMatch (p.verifyingKey seed) = true
  found_of_done : s.done = true → s.found.isSome = true
  threads : ∀ i, ThreadInv p v s.found s.done (s.threads i)

theorem SearchInv.init (n : ℕ) (p : AccountPrims) (v : VanitySearch) :
    SearchInv p v (SearchState.init n) where
  found_match := fun _ h => absurd h (by simp [SearchState.init])
  found_of_done := fun h => absurd h (by simp [SearchState.init])
  threads := fun _ => trivial

/-- What a thread relies on stays when a seed is recorded or the flag is raised. -/
theorem ThreadInv.weaken {found found' : Option Seed} {done done' : Bool} {th : SearchThread}
    (hfound : found.isSome = true → found'.isSome = true) (hdone : done = true → done' = true)
    (h : ThreadInv p v found done th) : ThreadInv p v found' done' th := by
  cases th with
  | locking _ _ => exact h
  | recording _ _ => exact h
  | raising _ => exact hfound h
  | leaving _ => exact hdone h
  | ended => exact hdone h
  | _ => trivial

/-- A thread moves to where the invariant holds of it. -/
theorem SearchInv.move {th : SearchThread} (h : SearchInv p v s)
    (hth : ThreadInv p v s.found s.done th) : SearchInv p v (s.move i th) where
  found_match := h.found_match
  found_of_done := h.found_of_done
  threads := by
    intro j
    rw [SearchState.move_threads]
    by_cases hj : j = i
    · rw [if_pos hj]
      exact hth
    · rw [if_neg hj]
      exact h.threads j

theorem SearchInv.lock {holder : Option (Fin n)} (h : SearchInv p v s) :
    SearchInv p v { s with holder := holder } where
  found_match := h.found_match
  found_of_done := h.found_of_done
  threads := h.threads

theorem SearchInv.count {tries : ℕ} (h : SearchInv p v s) :
    SearchInv p v { s with tries := tries } where
  found_match := h.found_match
  found_of_done := h.found_of_done
  threads := h.threads

theorem SearchInv.record {seed : Seed} (h : SearchInv p v s)
    (hseed : v.isMatch (p.verifyingKey seed) = true) :
    SearchInv p v { s with found := s.found <|> some seed } where
  found_match := by
    intro seed' hfound
    rcases hs : s.found with _ | kept
    · rw [hs] at hfound
      rw [← Option.some.inj hfound]
      exact hseed
    · apply h.found_match
      rw [hs] at hfound ⊢
      exact hfound
  found_of_done := by
    intro _
    show (s.found <|> some seed).isSome = true
    cases s.found <;> rfl
  threads := by
    intro j
    apply (h.threads j).weaken _ fun hdone => hdone
    intro _
    show (s.found <|> some seed).isSome = true
    cases s.found <;> rfl

theorem SearchInv.raise (h : SearchInv p v s) (hfound : s.found.isSome = true) :
    SearchInv p v { s with done := true } where
  found_match := h.found_match
  found_of_done := fun _ => hfound
  threads := fun j => (h.threads j).weaken (fun hsome => hsome) fun _ => rfl

theorem SearchInv.step (h : SearchInv p v s) (hstep : searchStep p v s i a = some t) :
    SearchInv p v t := by
  have hi := h.threads i
  unfold searchStep at hstep
  split at hstep
  · -- the flag is read
    rename_i tries seen heq
    split_ifs at hstep with hseen hdone
    · rw [← Option.some.inj hstep]
      exact h.move hdone
    · rw [← Option.some.inj hstep]
      exact h.move trivial
  · rw [← Option.some.inj hstep]
    exact h.move trivial
  · rename_i tries seed heq
    split_ifs at hstep with hmatch
    · rw [← Option.some.inj hstep]
      exact h.move hmatch
    · rw [← Option.some.inj hstep]
      exact h.move trivial
  · rename_i tries seed heq
    rw [heq] at hi
    split_ifs at hstep
    rw [← Option.some.inj hstep]
    exact h.lock.move hi
  · rename_i tries seed heq
    rw [heq] at hi
    rw [← Option.some.inj hstep]
    apply (h.record hi).move
    show (s.found <|> some seed).isSome = true
    cases s.found <;> rfl
  · rename_i tries heq
    rw [heq] at hi
    rw [← Option.some.inj hstep]
    exact (h.raise hi).move trivial
  · rw [← Option.some.inj hstep]
    exact h.lock.move trivial
  · rename_i tries heq
    rw [heq] at hi
    rw [← Option.some.inj hstep]
    exact h.count.move hi
  · exact absurd hstep (by simp)

theorem SearchInv.run {ok : SearchState n → Fin n × SearchAction → Prop}
    (hrun : (searchMachine n p v).Run ok (.init n) s) : SearchInv p v s := by
  apply hrun.invariant _ (SearchInv.init n p v)
  intro s a t h _ hstep
  exact h.step hstep

end Threads

/-! ## What a call returns -/

/-- An account that a call returns is derived from a seed whose key matches. -/
theorem seed_of_findVanityAccount {p : AccountPrims} {input pre : String} {threads : ℕ}
    {found : VanityAccount} (hpre : normalisePrefix input = .ok pre)
    (h : FindVanityAccount p input threads (.ok found)) :
    ∃ seed, found.account = Account.fromSeed p seed ∧
      (VanitySearch.new pre).isMatch (p.verifyingKey seed) = true := by
  generalize hout : (Outcome.ok found : Outcome String VanityAccount) = out at h
  cases h with
  | refused _ => exact absurd hout (by simp)
  | panicked _ _ _ _ => exact absurd hout (by simp)
  | @finished pre' s hpre' hrun _ =>
    have hsame : pre' = pre := Except.ok.inj (hpre'.symm.trans hpre)
    rw [hsame] at hrun
    have hinv := SearchInv.run hrun
    unfold SearchState.outcome at hout
    split at hout
    · exact absurd hout (by simp)
    · rename_i seed hseed
      rw [Outcome.ok.inj hout]
      exact ⟨seed, rfl, hinv.found_match seed hseed⟩

/-- A search that ends has found an account: a thread leaves only when the flag is raised. -/
theorem findVanityAccount_ne_error {p : AccountPrims} {input pre : String} {threads : ℕ}
    {e : String} (hpre : normalisePrefix input = .ok pre) :
    ¬ FindVanityAccount p input threads (.err e) := by
  intro h
  generalize hout : (Outcome.err e : Outcome String VanityAccount) = out at h
  cases h with
  | refused herr => exact absurd (herr.symm.trans hpre) (by simp)
  | panicked _ _ _ _ => exact absurd hout (by simp)
  | @finished pre' s hpre' hrun hended =>
    have hinv := SearchInv.run hrun
    have hone := hinv.threads ⟨0, by omega⟩
    rw [hended] at hone
    have hsome := hinv.found_of_done hone
    unfold SearchState.outcome at hout
    split at hout
    · rename_i hnone
      rw [hnone] at hsome
      exact absurd hsome (by decide)
    · exact absurd hout (by simp)

/-- For an accepted prefix, the leading bytes of every key decide what the whole address does, and
every account that a search returns has an address with the prefix. -/
theorem vanity_search_agrees (p : AccountPrims) {input pre : String}
    (h : normalisePrefix input = .ok pre) :
    (∀ key : Field 32, (addressOf p key).toList.length = 58 ∧
      ((VanitySearch.new pre).isMatch key = true ↔ pre.toList <+: (addressOf p key).toList)) ∧
    ∀ threads found, FindVanityAccount p input threads (.ok found) →
      pre.toList <+: found.account.address.toList := by
  refine ⟨fun key => ⟨length_addressOf p key, isMatch_iff h p key⟩, fun threads found hfound => ?_⟩
  obtain ⟨seed, haccount, hmatch⟩ := seed_of_findVanityAccount h hfound
  rw [haccount]
  exact (isMatch_iff h p _).mp hmatch

/-- A digest of zeros, and every seed its own key. -/
def sampleAccountPrims : AccountPrims where
  wordList := sampleWords
  sha512_256 := fun _ => Field.replicate 32 0
  verifyingKey := fun seed => seed

/-- Two threads search for `a`. Both draw a seed that matches before either holds the mutex; the one
of the second thread is kept, and the first thread waits, finds it kept and leaves its own. -/
theorem vanity_search_agrees_two_threads :
    normalisePrefix "a" = .ok "A" ∧
    ∃ found, FindVanityAccount sampleAccountPrims "a" 2 (.ok found) ∧ found.tries = 2 ∧
      found.account = Account.fromSeed sampleAccountPrims (Field.replicate 32 7) ∧
      ['A'] <+: found.account.address.toList := by
  have hpre : normalisePrefix "a" = .ok "A" := by decide
  have hrun : FindVanityAccount sampleAccountPrims "a" 2
      (.ok ⟨Account.fromSeed sampleAccountPrims (Field.replicate 32 7), 2⟩) := by
    let actions : List (Fin 2 × SearchAction) :=
      [(0, .load false), (1, .load false), (0, .draw (Field.replicate 32 0)),
        (1, .draw (Field.replicate 32 7)), (1, .next), (1, .next), (1, .next), (1, .next),
        (0, .next), (0, .next), (0, .next), (1, .load true), (0, .next), (0, .load true),
        (0, .next), (1, .next)]
    have hexec : ∃ s,
        (searchMachine 2 sampleAccountPrims (.new "A")).exec actions (.init 2) = some s ∧
        s.found = some (Field.replicate 32 7) ∧ s.tries = 2 ∧ s.threads 0 = .ended ∧
        s.threads 1 = .ended :=
      ⟨_, rfl, rfl, rfl, rfl, rfl⟩
    obtain ⟨s, hs, hfound, htries, hended⟩ := hexec
    have hall : ∀ i : Fin 2, s.threads i = .ended := Fin.forall_fin_two.mpr hended
    have hfinished : FindVanityAccount sampleAccountPrims "a" 2 (s.outcome _) :=
      .finished hpre (Machine.Run.of_exec hs) hall
    unfold SearchState.outcome at hfinished
    rw [hfound, htries] at hfinished
    exact hfinished
  have hprefix := (vanity_search_agrees sampleAccountPrims hpre).2 2 _ hrun
  exact ⟨hpre, _, hrun, rfl, rfl, hprefix⟩

end BlockchainOps.AccountVault
