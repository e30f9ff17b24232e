import BlockchainOps.Algo.DailyBudgetWindows

/-!
# A daily budget across restarts

A restart does not refill the quota of a provider, so a consumer persists the state of the budget
and, on boot, restores the count if the window is still the one that was persisted. However often it
restarts, its requests are then answered as by a budget that never was (`restarts_transparent`).
-/

namespace BlockchainOps.Algo

/-- What a consumer persists of a daily budget. -/
structure DailyBudgetState where
  windowStartUnix : ℕ
  spent : ℕ
  max : ℕ
deriving DecidableEq, Repr

namespace DailyBudget

/-! ## Persisting and restoring -/

/-- Roll, then take a snapshot. -/
def dailyBudgetState (b : DailyBudget) (now : ℕ) : DailyBudgetState × DailyBudget :=
  let b := b.roll now
  (⟨b.windowStartUnix, b.spent, b.max⟩, b)

/-- Seed the count of the current window. -/
def withDailySpent (b : DailyBudget) (spent : ℕ) : DailyBudget := { b with spent }

/-- The budget of a new process: made at one reading of the clock, compared with what was persisted
at a later one, and seeded if the windows match. -/
def restore (cfg : DailyBudgetConfig) (saved : DailyBudgetState) (made seen : ℕ) : DailyBudget :=
  let (current, b) := (new cfg made 0).dailyBudgetState seen
  if current.windowStartUnix = saved.windowStartUnix then b.withDailySpent saved.spent else b

/-- What happens to a consumer's budget. -/
inductive Step
  | request (now : ℕ)
  | restart (saved made seen : ℕ)
deriving DecidableEq, Repr

/-- When the clock is read. -/
def Step.readings : Step → List ℕ
  | request now => [now]
  | restart saved made seen => [saved, made, seen]

/-- When a request is made. -/
def Step.requests : Step → List ℕ
  | request now => [now]
  | restart _ _ _ => []

/-- The answers to a consumer's requests, each with its time, over all its lives. -/
def answers (cfg : DailyBudgetConfig) : DailyBudget → List Step → List (ℕ × Except Duration Unit)
  | _, [] => []
  | b, .request now :: steps => (now, (b.request now).1) :: answers cfg (b.request now).2 steps
  | b, .restart saved made seen :: steps =>
    answers cfg (restore cfg (b.dailyBudgetState saved).1 made seen) steps

/-! ## One restart -/

variable {b b' : DailyBudget} {now t u : ℕ}

/-- Two windows of the same offset that hold a time are one. -/
theorem InWindow.start_eq (h : InWindow b t) (h' : InWindow b' t)
    (hoffset : b'.dayStartOffsetSecs = b.dayStartOffsetSecs) :
    b'.windowStartUnix = b.windowStartUnix := by
  have haligned := h.aligned
  have haligned' := h'.aligned
  have hle := h.start_le
  have hle' := h'.start_le
  have hlt := h.lt_end
  have hlt' := h'.lt_end
  omega

/-- A budget is determined by what is not counted: its window, its bound and its count. -/
theorem eq_of_fields (hmax : b'.max = b.max) (hoffset : b'.dayStartOffsetSecs = b.dayStartOffsetSecs)
    (hstart : b'.windowStartUnix = b.windowStartUnix) (hspent : b'.spent = b.spent) : b' = b := by
  cases b
  cases b'
  congr

/-- To roll twice is to roll once. -/
theorem InWindow.roll_roll (h : InWindow b now) (hle : now ≤ t) (htu : t ≤ u) (hu : u < 2 ^ 63) :
    (b.roll t).roll u = b.roll u := by
  have ht : t < 2 ^ 63 := by omega
  obtain ⟨hwindow, hroll | ⟨hpast, hzero⟩⟩ := h.roll hle ht
  · rw [hroll.1]
  · obtain ⟨hlast, hlastZero⟩ := h.roll_past hu (by omega)
    obtain ⟨hagain, hcases⟩ := hwindow.roll htu hu
    have hoffset : ((b.roll t).roll u).dayStartOffsetSecs = (b.roll u).dayStartOffsetSecs := by
      simp only [roll_dayStartOffsetSecs]
    have hspent : ((b.roll t).roll u).spent = 0 := by
      rcases hcases with ⟨hsame, -⟩ | ⟨-, hagainZero⟩
      · rw [hsame, hzero]
      · exact hagainZero
    apply eq_of_fields
    · simp only [roll_max]
    · exact hoffset
    · exact hlast.start_eq hagain hoffset
    · rw [hspent, hlastZero]

/-- A budget in its window at a time, in the terms of a configuration. -/
structure Made (cfg : DailyBudgetConfig) (b : DailyBudget) (t : ℕ) : Prop where
  window : InWindow b t
  max : b.max = cfg.maxRequestsPerDay
  offset : b.dayStartOffsetSecs = cfg.dayStartOffsetSecs % 86400

variable {cfg : DailyBudgetConfig}

theorem Made.roll (h : Made cfg b now) (hle : now ≤ t) (ht : t < 2 ^ 63) :
    Made cfg (b.roll t) t where
  window := (h.window.roll hle ht).1
  max := (roll_max b t).trans h.max
  offset := (roll_dayStartOffsetSecs b t).trans h.offset

/-- Budgets of one configuration in their windows at one time differ in their count only. -/
theorem Made.eq (h : Made cfg b t) (h' : Made cfg b' t) (hspent : b'.spent = b.spent) : b' = b := by
  have hoffset := h'.offset.trans h.offset.symm
  exact eq_of_fields (h'.max.trans h.max.symm) hoffset (h.window.start_eq h'.window hoffset) hspent

/-- A new budget has counted nothing when it is looked at. -/
theorem made_new (hle : cfg.dayStartOffsetSecs % 86400 ≤ now) (hnow : now ≤ t) (ht : t < 2 ^ 63) :
    Made cfg ((new cfg now 0).roll t) t ∧ ((new cfg now 0).roll t).spent = 0 := by
  have hnew : Made cfg (new cfg now 0) now := ⟨inWindow_new cfg 0 hle (by omega), rfl, rfl⟩
  refine ⟨hnew.roll hnow ht, ?_⟩
  rcases (hnew.window.roll hnow ht).2 with ⟨hsame, -⟩ | ⟨-, hzero⟩
  · rw [hsame]
    rfl
  · exact hzero

/-- What is restored is the budget, rolled to the time of the comparison. -/
theorem restore_eq {saved made seen : ℕ} (h : Made cfg b now) (hsaved : now ≤ saved)
    (hmade : saved ≤ made) (hseen : made ≤ seen) (hle : cfg.dayStartOffsetSecs % 86400 ≤ made)
    (hclock : seen < 2 ^ 63) :
    restore cfg (b.dailyBudgetState saved).1 made seen = b.roll seen := by
  obtain ⟨hfresh, hzero⟩ := made_new hle hseen hclock
  have hkept := h.roll (t := saved) (by omega) (by omega)
  have hlast := h.roll (t := seen) (by omega) hclock
  have hagain := h.window.roll_roll (t := saved) (u := seen) hsaved (by omega) hclock
  have hlt := hfresh.window.lt_end
  have hstart := hfresh.window.start_le
  have hkeptStart := hkept.window.start_le
  show (if ((new cfg made 0).roll seen).windowStartUnix = (b.roll saved).windowStartUnix then
      ((new cfg made 0).roll seen).withDailySpent (b.roll saved).spent
    else (new cfg made 0).roll seen) = b.roll seen
  by_cases hmatch : ((new cfg made 0).roll seen).windowStartUnix = (b.roll saved).windowStartUnix
  · -- the window that was persisted still holds the time
    have hheld : InWindow (b.roll saved) seen :=
      ⟨hkept.window.offset, hkept.window.aligned, by omega, by omega⟩
    rw [if_pos hmatch]
    apply hlast.eq
    · exact ⟨⟨hfresh.window.offset, hfresh.window.aligned, hstart, hlt⟩, hfresh.max, hfresh.offset⟩
    · rw [← hagain, hheld.roll_eq hclock]
      rfl
  · -- it is over, so that the budget has rolled to zero, too
    have hover : (b.roll saved).windowStartUnix + 86400 ≤ seen := by
      by_contra hheld
      have hwindow : InWindow (b.roll saved) seen :=
        ⟨hkept.window.offset, hkept.window.aligned, by omega, by omega⟩
      exact hmatch (hwindow.start_eq hfresh.window (hfresh.offset.trans hkept.offset.symm))
    rw [if_neg hmatch]
    apply hlast.eq hfresh
    rw [hzero, ← hagain, (hkept.window.roll_past hclock hover).2]

/-! ## All lives -/

/-- A request only sees a budget as it rolls. -/
theorem request_congr (h : b'.roll t = b.roll t) : b'.request t = b.request t := by
  unfold request check
  rw [h]

theorem Made.request (h : Made cfg b now) (hle : now ≤ t) (ht : t < 2 ^ 63)
    (hmax : cfg.maxRequestsPerDay < 2 ^ 32) : Made cfg (b.request t).2 t := by
  have hbound : b.max < 2 ^ 32 := by rw [h.max]; exact hmax
  have happly := (request_apply h.window hle ht hbound).2
  refine ⟨h.window.request hle ht hbound, (request_max h.window hle ht hbound).trans h.max, ?_⟩
  rw [happly]
  exact (roll_dayStartOffsetSecs b t).trans h.offset

/-- What the state tells of a budget is told of one that rolls alike. -/
theorem dailyBudgetState_congr (h : b'.roll t = b.roll t) :
    (b'.dailyBudgetState t).1 = (b.dailyBudgetState t).1 := by
  unfold dailyBudgetState
  rw [h]

/-- A request is made at a reading of the clock. -/
theorem requests_sublist (steps : List Step) :
    (steps.flatMap Step.requests).Sublist (steps.flatMap Step.readings) := by
  induction steps with
  | nil => exact .refl _
  | cons step steps ih =>
    rw [List.flatMap_cons, List.flatMap_cons]
    apply List.Sublist.append _ ih
    cases step with
    | request now => exact .refl _
    | restart saved made seen => exact List.nil_sublist _

/-- A budget that restarts answers as one that does not, if the two roll alike from now on. -/
theorem answers_eq_trace (hmax : cfg.maxRequestsPerDay < 2 ^ 32) {steps : List Step} {since : ℕ}
    (h : Made cfg b since) (hsince : since ≤ now)
    (hrolls : ∀ t, now ≤ t → t < 2 ^ 63 → b'.roll t = b.roll t)
    (hsorted : (now :: steps.flatMap Step.readings).Pairwise (· ≤ ·))
    (hclock : ∀ t ∈ steps.flatMap Step.readings, cfg.dayStartOffsetSecs % 86400 ≤ t ∧ t < 2 ^ 63) :
    answers cfg b' steps = trace DailyBudget.request b (steps.flatMap Step.requests) := by
  induction steps generalizing b b' since now with
  | nil => rfl
  | cons step steps ih =>
    rw [List.flatMap_cons] at hsorted hclock
    cases step with
    | request t =>
      have hle : now ≤ t := (List.pairwise_cons.mp hsorted).1 t List.mem_cons_self
      have ht := (hclock t List.mem_cons_self).2
      have hsame : b'.request t = b.request t := request_congr (hrolls t hle ht)
      have hrest : answers cfg (b.request t).2 steps
          = trace DailyBudget.request (b.request t).2 (steps.flatMap Step.requests) :=
        ih (h.request (by omega) ht hmax) le_rfl (fun _ _ _ => rfl)
          (List.pairwise_cons.mp hsorted).2 fun u hu => hclock u (List.mem_cons_of_mem t hu)
      show (t, (b'.request t).1) :: answers cfg (b'.request t).2 steps
        = (t, (b.request t).1) :: trace DailyBudget.request (b.request t).2
          (steps.flatMap Step.requests)
      rw [hsame, hrest]
    | restart saved made seen =>
      have htimes : (now :: saved :: made :: seen :: steps.flatMap Step.readings).Pairwise (· ≤ ·) :=
        hsorted
      simp only [List.pairwise_cons, List.mem_cons, forall_eq_or_imp] at htimes
      obtain ⟨⟨hsaved, -⟩, ⟨hmade, -⟩, ⟨hseen, -⟩, hlater, htail⟩ := htimes
      have hlow := (hclock made (by simp [Step.readings])).1
      have hhigh := (hclock seen (by simp [Step.readings])).2
      have hrestored : restore cfg (b'.dailyBudgetState saved).1 made seen = b.roll seen := by
        rw [dailyBudgetState_congr (hrolls saved hsaved (by omega))]
        exact restore_eq h (by omega) hmade hseen hlow hhigh
      show answers cfg (restore cfg (b'.dailyBudgetState saved).1 made seen) steps = _
      rw [hrestored]
      have hlate : since ≤ seen := by omega
      apply ih h hlate
      · intro u hu hclocked
        exact h.window.roll_roll (t := seen) (by omega) hu hclocked
      · exact List.pairwise_cons.mpr ⟨hlater, htail⟩
      · exact fun u hu => hclock u (List.mem_append_right _ hu)

/-- Over all its lives a consumer whose clock does not go back is answered as one that lives on, and
no window admits more than the budget allows. -/
structure TransparentRestarts (cfg : DailyBudgetConfig) (primed start : ℕ) (steps : List Step) :
    Prop where
  answers : answers cfg (new cfg start primed) steps
    = trace DailyBudget.request (new cfg start primed) (steps.flatMap Step.requests)
  admits : ∀ s, s % 86400 = cfg.dayStartOffsetSecs % 86400 →
    countIn (fun r => r.toOption.isSome) s (s + 86399) (DailyBudget.answers cfg
      (new cfg start primed) steps) ≤ cfg.maxRequestsPerDay

theorem restarts_transparent (cfg : DailyBudgetConfig) (primed start : ℕ) (steps : List Step)
    (hmax : cfg.maxRequestsPerDay < 2 ^ 32)
    (hsorted : (start :: steps.flatMap Step.readings).Pairwise (· ≤ ·))
    (hclock : ∀ t ∈ start :: steps.flatMap Step.readings,
      cfg.dayStartOffsetSecs % 86400 ≤ t ∧ t < 2 ^ 63) :
    TransparentRestarts cfg primed start steps := by
  obtain ⟨hstart, hstart63⟩ := hclock start List.mem_cons_self
  have hnew : Made cfg (new cfg start primed) start :=
    ⟨inWindow_new cfg primed hstart hstart63, rfl, rfl⟩
  have htrace : DailyBudget.answers cfg (new cfg start primed) steps
      = trace DailyBudget.request (new cfg start primed) (steps.flatMap Step.requests) :=
    answers_eq_trace hmax hnew le_rfl (fun _ _ _ => rfl) hsorted
      fun t ht => hclock t (List.mem_cons_of_mem start ht)
  refine ⟨htrace, ?_⟩
  intro s hs
  have hrequests := requests_sublist steps
  rw [htrace]
  have hleft := admittedIn_le (b := new cfg start primed) hmax (hs.trans hnew.offset.symm) hnew.window
    (hsorted.sublist (hrequests.cons_cons start))
    fun t ht => (hclock t (List.mem_cons_of_mem start (hrequests.subset ht))).2
  refine le_trans hleft ?_
  unfold left
  split_ifs
  · exact Nat.zero_le _
  · exact Nat.sub_le _ _
  · exact le_rfl

/-- A budget of one a day: used up, not refilled by a restart on the same day, and restored to
nothing counted on the next. -/
theorem restarts_transparent_twice : TransparentRestarts ⟨1, 0⟩ 0 86400
    [.request 86400, .restart 86500 86501 86502, .request 86503, .restart 86504 172799 172800,
      .request 172801] :=
  restarts_transparent ⟨1, 0⟩ 0 86400 _ (by decide) (by decide) (by decide)

example : (answers ⟨1, 0⟩ (new ⟨1, 0⟩ 86400 0) [.request 86400, .restart 86500 86501 86502,
    .request 86503, .restart 86504 172799 172800, .request 172801]).map (fun a => a.2.toOption)
      = [some (), none, some ()] := by
  decide

end DailyBudget

end BlockchainOps.Algo
