import BlockchainOps.Algo.DailyBudget
import BlockchainOps.Lib.TokenBucket

/-!
# The windows of one caller's daily budget

A caller that makes its requests one after the other, at clock readings that do not go back, stays
in the window that holds its last reading (`InWindow`), and each window admits what it has left
(`admittedIn_le`). A refused request is told the time to the next window.
-/

namespace BlockchainOps.Algo

namespace DailyBudget

/-- Check a request, and record it if it may proceed. -/
def request (b : DailyBudget) (now : ℕ) : Except Duration Unit × DailyBudget :=
  match b.check now with
  | (.ok (), b) => (.ok (), b.record now)
  | (.error wait, b) => (.error wait, b)

/-- The requests admitted in the window that starts at `start`. -/
def admittedIn (start : ℕ) (b : DailyBudget) (ts : List ℕ) : ℕ :=
  countIn (fun r => r.toOption.isSome) start (start + 86399) (trace request b ts)

/-! ## Rolling -/

/-- The window of the budget holds the time `now`, and starts at the configured second of a day. -/
structure InWindow (b : DailyBudget) (now : ℕ) : Prop where
  offset : b.dayStartOffsetSecs < 86400
  aligned : b.windowStartUnix % 86400 = b.dayStartOffsetSecs
  start_le : b.windowStartUnix ≤ now
  lt_end : now < b.windowStartUnix + 86400

variable {b : DailyBudget} {now : ℕ}

theorem windowStartFor_mod {offset : ℕ} (hoffset : offset < 86400) (hle : offset ≤ now)
    (hnow : now < 2 ^ 63) : windowStartFor now offset % 86400 = offset := by
  have hoffset63 : offset < 2 ^ 63 := by omega
  unfold windowStartFor asI64
  rw [if_pos hnow, if_pos hoffset63]
  dsimp only
  omega

theorem inWindow_new (cfg : DailyBudgetConfig) (primed : ℕ)
    (hle : cfg.dayStartOffsetSecs % 86400 ≤ now) (hnow : now < 2 ^ 63) :
    InWindow (new cfg now primed) now := by
  have hoffset : cfg.dayStartOffsetSecs % 86400 < 86400 := Nat.mod_lt _ (by decide)
  obtain ⟨hstart, hend⟩ := windowStartFor_spec hnow hoffset
  exact ⟨hoffset, windowStartFor_mod hoffset hle hnow, hstart, hend⟩

/-- In its window a budget does not roll. -/
theorem InWindow.roll_eq (h : InWindow b now) (hnow : now < 2 ^ 63) : b.roll now = b := by
  have hstart := h.start_le
  have hlt := h.lt_end
  have hend := windowEnd_eq (b := b) (by omega)
  unfold roll
  rw [if_neg (by omega)]

/-- Past its window a budget rolls to the one that holds the time, which starts from zero. -/
theorem InWindow.roll_past {t : ℕ} (h : InWindow b now) (ht : t < 2 ^ 63)
    (hpast : b.windowStartUnix + 86400 ≤ t) :
    InWindow (b.roll t) t ∧ (b.roll t).spent = 0 := by
  have hoffset := h.offset
  have haligned := h.aligned
  have hend := windowEnd_eq (b := b) (by omega)
  obtain ⟨hstart, hwithin⟩ := windowStartFor_spec ht hoffset
  have hmod := windowStartFor_mod hoffset (show b.dayStartOffsetSecs ≤ t by omega) ht
  unfold roll
  rw [if_pos (by omega)]
  exact ⟨⟨hoffset, hmod, hstart, hwithin⟩, rfl⟩

/-- Rolling on stays in a window, the same or a later one. -/
theorem InWindow.roll {t : ℕ} (h : InWindow b now) (hle : now ≤ t) (ht : t < 2 ^ 63) :
    InWindow (b.roll t) t ∧ ((b.roll t = b ∧ t < b.windowStartUnix + 86400) ∨
      (b.windowStartUnix + 86400 ≤ t ∧ (b.roll t).spent = 0)) := by
  have hstart := h.start_le
  by_cases hpast : b.windowStartUnix + 86400 ≤ t
  · obtain ⟨hwindow, hspent⟩ := h.roll_past ht hpast
    exact ⟨hwindow, Or.inr ⟨hpast, hspent⟩⟩
  · have hwindow : InWindow b t := ⟨h.offset, h.aligned, by omega, by omega⟩
    have hroll := hwindow.roll_eq ht
    rw [hroll]
    exact ⟨hwindow, Or.inl ⟨rfl, by omega⟩⟩

/-! ## Requests -/

/-- A request rolls, and takes one of what the window has left. -/
theorem request_apply (h : InWindow b now) {t : ℕ} (hle : now ≤ t) (ht : t < 2 ^ 63)
    (hmax : b.max < 2 ^ 32) :
    (b.request t).1.toOption.isSome = decide ((b.roll t).spent < b.max) ∧
      (b.request t).2 = { b.roll t with
        spent := (b.roll t).spent + if (b.roll t).spent < b.max then 1 else 0 } := by
  obtain ⟨hwindow, -⟩ := h.roll hle ht
  have hagain : (b.roll t).roll t = b.roll t := hwindow.roll_eq ht
  have hmaxEq := roll_max b t
  unfold request check
  dsimp only
  by_cases hspent : b.max ≤ (b.roll t).spent
  · rw [if_pos (by omega), if_neg (by omega), decide_eq_false (by omega)]
    exact ⟨rfl, rfl⟩
  · rw [if_neg (by omega), if_pos (by omega), decide_eq_true (by omega)]
    refine ⟨rfl, ?_⟩
    have hone : satAddU32 (b.roll t).spent 1 = (b.roll t).spent + 1 := by
      unfold satAddU32
      omega
    show { (b.roll t).roll t with spent := satAddU32 ((b.roll t).roll t).spent 1 } = _
    rw [hagain, hone]

theorem request_max (h : InWindow b now) {t : ℕ} (hle : now ≤ t) (ht : t < 2 ^ 63)
    (hmax : b.max < 2 ^ 32) : (b.request t).2.max = b.max := by
  rw [(request_apply h hle ht hmax).2]
  exact roll_max b t

theorem InWindow.request (h : InWindow b now) {t : ℕ} (hle : now ≤ t) (ht : t < 2 ^ 63)
    (hmax : b.max < 2 ^ 32) : InWindow (b.request t).2 t := by
  have hwindow := (h.roll hle ht).1
  rw [(request_apply h hle ht hmax).2]
  exact ⟨hwindow.offset, hwindow.aligned, hwindow.start_le, hwindow.lt_end⟩

/-- What the window that starts at `start` still admits. -/
def left (b : DailyBudget) (start : ℕ) : ℕ :=
  if start < b.windowStartUnix then 0
  else if start = b.windowStartUnix then b.max - b.spent
  else b.max

/-- One request takes from what its window has left. -/
theorem left_request (h : InWindow b now) {t : ℕ} (hle : now ≤ t) (ht : t < 2 ^ 63)
    (hmax : b.max < 2 ^ 32) {start : ℕ} (hstart : start % 86400 = b.dayStartOffsetSecs) :
    (if start ≤ t ∧ t ≤ start + 86399 ∧ (b.request t).1.toOption.isSome = true then 1 else 0)
      + (b.request t).2.left start ≤ b.left start := by
  obtain ⟨hadmits, hnext⟩ := request_apply h hle ht hmax
  obtain ⟨hwindow, hcases⟩ := h.roll hle ht
  have haligned := h.aligned
  have hmaxEq := roll_max b t
  have hoffsetEq := roll_dayStartOffsetSecs b t
  have hrolled := hwindow.aligned
  have hrolledStart := hwindow.start_le
  have hrolledEnd := hwindow.lt_end
  rw [hadmits, hnext]
  unfold left
  dsimp only
  rw [hmaxEq]
  simp only [decide_eq_true_eq]
  rcases hcases with ⟨hroll, hin⟩ | ⟨hpast, hspent⟩
  · rw [hroll] at hrolled hrolledStart hrolledEnd ⊢
    split_ifs <;> omega
  · rw [hspent]
    split_ifs <;> omega

/-- Every window admits at most what it has left. -/
theorem admittedIn_le (hmax : b.max < 2 ^ 32) {start : ℕ}
    (hstart : start % 86400 = b.dayStartOffsetSecs) {ts : List ℕ} (h : InWindow b now)
    (hsorted : (now :: ts).Pairwise (· ≤ ·)) (hclock : ∀ t ∈ ts, t < 2 ^ 63) :
    admittedIn start b ts ≤ b.left start := by
  induction ts generalizing b now with
  | nil => exact Nat.zero_le _
  | cons t ts ih =>
    rw [List.pairwise_cons] at hsorted
    have hle := hsorted.1 t List.mem_cons_self
    have ht := hclock t List.mem_cons_self
    have hoffset : (b.request t).2.dayStartOffsetSecs = b.dayStartOffsetSecs := by
      rw [(request_apply h hle ht hmax).2]
      exact roll_dayStartOffsetSecs b t
    have hrest := ih (by rw [request_max h hle ht hmax]; exact hmax) (by rw [hoffset]; exact hstart)
      (h.request hle ht hmax) hsorted.2 fun u hu => hclock u (List.mem_cons_of_mem t hu)
    have hstep := left_request h hle ht hmax hstart
    unfold admittedIn at hrest ⊢
    rw [trace, countIn_cons]
    exact le_trans (Nat.add_le_add_left hrest _) hstep

/-- After any requests the window holds the last reading. -/
theorem InWindow.after {ts : List ℕ} (h : InWindow b now) (hmax : b.max < 2 ^ 32)
    (hsorted : (now :: ts).Pairwise (· ≤ ·)) (hclock : ∀ t ∈ ts, t < 2 ^ 63) :
    InWindow (stateAfter DailyBudget.request b ts) (ts.getLastD now) ∧
      (stateAfter DailyBudget.request b ts).max = b.max ∧
      (stateAfter DailyBudget.request b ts).dayStartOffsetSecs = b.dayStartOffsetSecs := by
  induction ts generalizing b now with
  | nil => exact ⟨h, rfl, rfl⟩
  | cons t ts ih =>
    rw [List.pairwise_cons] at hsorted
    have hle := hsorted.1 t List.mem_cons_self
    have ht := hclock t List.mem_cons_self
    have hmaxEq := request_max h hle ht hmax
    have hoffset : (b.request t).2.dayStartOffsetSecs = b.dayStartOffsetSecs := by
      rw [(request_apply h hle ht hmax).2]
      exact roll_dayStartOffsetSecs b t
    obtain ⟨hwindow, hrestMax, hrestOffset⟩ := ih (h.request hle ht hmax)
      (by rw [hmaxEq]; exact hmax) hsorted.2 fun u hu => hclock u (List.mem_cons_of_mem t hu)
    rw [List.getLastD_cons]
    exact ⟨hwindow, hrestMax.trans hmaxEq, hrestOffset.trans hoffset⟩

/-! ## Refusals -/

/-- A refusal at the time `now` that leaves the budget `b` and tells to wait `secs` seconds, which
is the time to the next window: until then every check fails, and then one succeeds. -/
structure RefusedFor (b : DailyBudget) (now secs : ℕ) : Prop where
  pos : 0 < secs
  le : secs ≤ 86400
  boundary : (now + secs) % 86400 = b.dayStartOffsetSecs
  next : ∀ t, now < t → t % 86400 = b.dayStartOffsetSecs → now + secs ≤ t
  fails : ∀ us : List ℕ, (∀ u ∈ us, now ≤ u ∧ u < now + secs) → ∀ t, now ≤ t → t < now + secs →
    ∃ wait, ((stateAfter check b us).check t).1 = .error wait
  succeeds : ∀ us : List ℕ, (∀ u ∈ us, now ≤ u ∧ u < now + secs) → 0 < b.max →
    ((stateAfter check b us).check (now + secs)).1 = .ok ()

/-- Checks in the window of a budget leave it as it is. -/
theorem stateAfter_check {us : List ℕ}
    (hus : ∀ u ∈ us, InWindow b u ∧ u < 2 ^ 63) : stateAfter check b us = b := by
  induction us with
  | nil => rfl
  | cons u us ih =>
    obtain ⟨hwindow, hu⟩ := hus u List.mem_cons_self
    have hsame : (b.check u).2 = b := by
      rw [check_snd]
      exact hwindow.roll_eq hu
    show stateAfter check (b.check u).2 us = b
    rw [hsame]
    exact ih fun v hv => hus v (List.mem_cons_of_mem u hv)

theorem check_error {t : ℕ} {wait : Duration} (h : (b.check t).1 = .error wait) :
    b.max ≤ (b.roll t).spent ∧ wait = Duration.fromSecs ((b.roll t).windowEnd - t) := by
  have hmaxEq := roll_max b t
  unfold check at h
  dsimp only at h
  by_cases hspent : b.max ≤ (b.roll t).spent
  · rw [if_pos (by omega)] at h
    exact ⟨hspent, (Except.error.inj h).symm⟩
  · rw [if_neg (by omega)] at h
    exact absurd h (by simp)

theorem check_of_spent {t : ℕ} (h : b.max ≤ (b.roll t).spent) :
    ∃ wait, (b.check t).1 = .error wait := by
  have hnot : (b.check t).1 ≠ .ok () := by
    intro hok
    rw [check_ok_iff] at hok
    omega
  rcases hcheck : (b.check t).1 with wait | _
  · exact ⟨wait, rfl⟩
  · exact absurd hcheck hnot

/-- A refused check tells the time to the next window. -/
theorem InWindow.refused {t : ℕ} {wait : Duration} (h : InWindow b now) (hle : now ≤ t)
    (ht : t < 2 ^ 62) (hcheck : (b.check t).1 = .error wait) :
    ∃ secs, wait = Duration.fromSecs secs ∧ RefusedFor (b.check t).2 t secs := by
  obtain ⟨hspent, hwait⟩ := check_error hcheck
  obtain ⟨hwindow, -⟩ := h.roll hle (show t < 2 ^ 63 by omega)
  have hmaxEq := roll_max b t
  rw [check_snd]
  generalize b.roll t = r at *
  have hstart := hwindow.start_le
  have hlt := hwindow.lt_end
  have haligned := hwindow.aligned
  have hend := windowEnd_eq (b := r) (by omega)
  have hwithin : ∀ u, t ≤ u → u < t + (r.windowEnd - t) → InWindow r u ∧ u < 2 ^ 63 := by
    intro u htu hu
    exact ⟨⟨hwindow.offset, haligned, by omega, by omega⟩, by omega⟩
  have hkept : ∀ us : List ℕ, (∀ u ∈ us, t ≤ u ∧ u < t + (r.windowEnd - t)) →
      stateAfter check r us = r := by
    intro us hus
    exact stateAfter_check fun u hu => hwithin u (hus u hu).1 (hus u hu).2
  refine ⟨r.windowEnd - t, hwait, by omega, by omega, by omega, ?_, ?_, ?_⟩
  · intro u hu hmod
    omega
  · intro us hus u htu hu
    obtain ⟨hin, hu63⟩ := hwithin u htu hu
    rw [hkept us hus]
    apply check_of_spent
    rw [hin.roll_eq hu63]
    omega
  · intro us hus hpos
    obtain ⟨-, hzero⟩ := hwindow.roll_past (show t + (r.windowEnd - t) < 2 ^ 63 by omega) (by omega)
    rw [hkept us hus, check_ok_iff, hzero]
    exact hpos

/-! ## Runs -/

/-- After the requests `ts` of a caller who started at the reading `start`: the window holds the
last reading, no window admitted more than the budget allows, and a request that is refused now is
told the time to the next window. -/
structure DailyWindows (cfg : DailyBudgetConfig) (primed start : ℕ) (ts : List ℕ) : Prop where
  window : InWindow (stateAfter request (new cfg start primed) ts) (ts.getLastD start) ∧
    (stateAfter request (new cfg start primed) ts).dayStartOffsetSecs
      = cfg.dayStartOffsetSecs % 86400
  admits : ∀ s, s % 86400 = cfg.dayStartOffsetSecs % 86400 →
    admittedIn s (new cfg start primed) ts ≤ cfg.maxRequestsPerDay
  first : admittedIn (new cfg start primed).windowStartUnix (new cfg start primed) ts
    ≤ cfg.maxRequestsPerDay - primed
  refused : ∀ now wait, ts.getLastD start ≤ now → now < 2 ^ 62 →
    ((stateAfter request (new cfg start primed) ts).check now).1 = .error wait →
      ∃ secs, wait = Duration.fromSecs secs ∧
        RefusedFor ((stateAfter request (new cfg start primed) ts).check now).2 now secs

/-- The windows of a caller whose clock does not go back are correct. -/
theorem dailyWindows (cfg : DailyBudgetConfig) (primed start : ℕ) (ts : List ℕ)
    (hmax : cfg.maxRequestsPerDay < 2 ^ 32) (hsorted : (start :: ts).Pairwise (· ≤ ·))
    (hclock : ∀ t ∈ start :: ts, cfg.dayStartOffsetSecs % 86400 ≤ t ∧ t < 2 ^ 62) :
    DailyWindows cfg primed start ts := by
  have hfirst : InWindow (new cfg start primed) start := by
    obtain ⟨hle, hlt⟩ := hclock start List.mem_cons_self
    exact inWindow_new cfg primed hle (by omega)
  have hclock63 : ∀ t ∈ ts, t < 2 ^ 63 := by
    intro t ht
    have hlt := (hclock t (List.mem_cons_of_mem start ht)).2
    omega
  have hleft : ∀ s, s % 86400 = (new cfg start primed).dayStartOffsetSecs →
      admittedIn s (new cfg start primed) ts ≤ (new cfg start primed).left s :=
    fun s hs => admittedIn_le hmax hs hfirst hsorted hclock63
  obtain ⟨hwindow, -, hoffset⟩ := hfirst.after hmax hsorted hclock63
  have halignedFirst := hfirst.aligned
  refine ⟨⟨hwindow, hoffset⟩, ?_, ?_, ?_⟩
  · intro s hs
    refine le_trans (hleft s hs) ?_
    unfold left
    split_ifs
    · exact Nat.zero_le _
    · exact Nat.sub_le _ _
    · exact le_rfl
  · refine le_trans (hleft _ halignedFirst) ?_
    unfold left
    rw [if_neg (by omega), if_pos rfl]
    exact le_rfl
  · intro now wait hle hnow hcheck
    exact hwindow.refused hle hnow hcheck

/-- Two requests of a budget of one a day, made on the same day. -/
theorem dailyWindows_two_requests : DailyWindows ⟨1, 3600⟩ 0 7200 [7200, 7300] :=
  dailyWindows ⟨1, 3600⟩ 0 7200 [7200, 7300] (by decide) (by decide) (by decide)

end DailyBudget

end BlockchainOps.Algo
