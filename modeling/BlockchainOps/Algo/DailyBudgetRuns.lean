import Mathlib.Data.Fintype.Card
import BlockchainOps.Lib.Machine
import BlockchainOps.Algo.DailyBudget

/-!
# Threads that share a daily budget

Any number of threads send requests through one client. A request reads the wall clock once,
checks the budget, waits at the token bucket for as long as it takes, and records itself with
the reading it started from; the budget is locked for the check and again for the record, and
other threads step in between.

Along every run whose checks and records come no earlier than the current window (`OnTime`),
the window only moves forward and the budget counts every record of the current window. A
reading from before the window rolls it back (`budgetMachine_loses_count`).
-/

namespace BlockchainOps.Algo

/-! ## The machine -/

/-- Where a thread stands in its request. -/
inductive Phase
  | idle
  | ready (now : ℕ)
  | waiting (now : ℕ)
deriving DecidableEq, Repr

/-- The wall clock, the shared budget, the threads, and a record of the window each request was
committed to. -/
structure BudgetState (n : ℕ) where
  clock : ℕ
  budget : DailyBudget
  threads : Fin n → Phase
  commits : List ℕ

inductive BudgetAction (n : ℕ)
  | tick (now : ℕ)
  | readClock (i : Fin n)
  | check (i : Fin n)
  | reject (i : Fin n)
  | record (i : Fin n)
deriving DecidableEq, Repr

namespace BudgetState

variable {n : ℕ}

/-- A fresh client with `primed` requests already counted. -/
def init (n : ℕ) (cfg : DailyBudgetConfig) (now primed : ℕ) : BudgetState n where
  clock := now
  budget := .new cfg now primed
  threads := fun _ => .idle
  commits := []

/-- Move the thread `i` to a phase. -/
def move (s : BudgetState n) (i : Fin n) (p : Phase) : BudgetState n :=
  { s with threads := Function.update s.threads i p }

@[simp] theorem move_budget (s : BudgetState n) (i : Fin n) (p : Phase) :
    (s.move i p).budget = s.budget := rfl
@[simp] theorem move_commits (s : BudgetState n) (i : Fin n) (p : Phase) :
    (s.move i p).commits = s.commits := rfl

theorem move_threads (s : BudgetState n) (i j : Fin n) (p : Phase) :
    (s.move i p).threads j = if j = i then p else s.threads j := by
  show Function.update s.threads i p j = _
  rw [Function.update_apply]

end BudgetState

/-- The threads of one client: the clock moves forward, and each thread takes the steps of its
request. -/
def budgetMachine (n : ℕ) : Machine (BudgetState n) (BudgetAction n) where
  step s
    | .tick now => if s.clock ≤ now then some { s with clock := now } else none
    | .readClock i =>
      match s.threads i with
      | .idle => some (s.move i (.ready s.clock))
      | _ => none
    | .check i =>
      match s.threads i with
      | .ready now =>
        let s' := { s with budget := (s.budget.check now).2 }
        match (s.budget.check now).1 with
        | .ok () => some (s'.move i (.waiting now))
        | .error _ => some (s'.move i .idle)
      | _ => none
    | .reject i =>
      match s.threads i with
      | .waiting _ => some (s.move i .idle)
      | _ => none
    | .record i =>
      match s.threads i with
      | .waiting now =>
        let budget := s.budget.record now
        some { s.move i .idle with budget, commits := budget.windowStartUnix :: s.commits }
      | _ => none

/-- The step comes no earlier than the current window: a check or a record uses a reading from
the window's start on, and a record finds room in the counter. -/
def OnTime {n : ℕ} (s : BudgetState n) : BudgetAction n → Prop
  | .check i => ∀ now, s.threads i = .ready now →
      s.budget.windowStartUnix ≤ now ∧ now < 2 ^ 63
  | .record i => ∀ now, s.threads i = .waiting now →
      s.budget.windowStartUnix ≤ now ∧ now < 2 ^ 63 ∧ s.budget.spent < 2 ^ 32 - 1
  | _ => True

/-- The steps of a machine, by what they did. -/
theorem budgetMachine_step_cases {n : ℕ} {s t : BudgetState n} {a : BudgetAction n}
    (h : (budgetMachine n).step s a = some t) :
    (∃ now, a = .tick now ∧ s.clock ≤ now ∧ t = { s with clock := now }) ∨
    (∃ i, a = .readClock i ∧ s.threads i = .idle ∧ t = s.move i (.ready s.clock)) ∨
    (∃ i now p, a = .check i ∧ s.threads i = .ready now ∧
      ((s.budget.roll now).spent < s.budget.max ∧ p = .waiting now ∨ p = .idle) ∧
      t = { s with budget := s.budget.roll now }.move i p) ∨
    (∃ i now, a = .reject i ∧ s.threads i = .waiting now ∧ t = s.move i .idle) ∨
    (∃ i now, a = .record i ∧ s.threads i = .waiting now ∧
      t = { s.move i .idle with
            budget := s.budget.record now
            commits := (s.budget.roll now).windowStartUnix :: s.commits }) := by
  rcases a with now | i | i | i | i
  · left
    simp only [budgetMachine] at h
    split_ifs at h with hle
    exact ⟨now, rfl, hle, (Option.some.inj h).symm⟩
  · right; left
    simp only [budgetMachine] at h
    rcases hi : s.threads i with _ | now | now <;> simp only [hi] at h
    · exact ⟨i, rfl, hi, (Option.some.inj h).symm⟩
    · exact absurd h (by simp)
    · exact absurd h (by simp)
  · right; right; left
    simp only [budgetMachine] at h
    rcases hi : s.threads i with _ | now | now <;> simp only [hi] at h
    · exact absurd h (by simp)
    · rw [DailyBudget.check_snd] at h
      rcases hok : (s.budget.check now).1 with wait | ⟨⟩ <;> simp only [hok] at h
      · exact ⟨i, now, .idle, rfl, hi, Or.inr rfl, (Option.some.inj h).symm⟩
      · have hroom := (DailyBudget.check_ok_iff _ _).mp hok
        exact ⟨i, now, .waiting now, rfl, hi, Or.inl ⟨hroom, rfl⟩, (Option.some.inj h).symm⟩
    · exact absurd h (by simp)
  · right; right; right; left
    simp only [budgetMachine] at h
    rcases hi : s.threads i with _ | now | now <;> simp only [hi] at h
    · exact absurd h (by simp)
    · exact absurd h (by simp)
    · exact ⟨i, now, rfl, hi, (Option.some.inj h).symm⟩
  · right; right; right; right
    simp only [budgetMachine] at h
    rcases hi : s.threads i with _ | now | now <;> simp only [hi] at h
    · exact absurd h (by simp)
    · exact absurd h (by simp)
    · exact ⟨i, now, rfl, hi, (Option.some.inj h).symm⟩

/-! ## What a run preserves -/

variable {n : ℕ} {cfg : DailyBudgetConfig} {first primed : ℕ}

/-- The thread waits with a reading from the window `w` on. -/
def Phase.waitsFrom (w : ℕ) : Phase → Bool
  | .waiting now => decide (w ≤ now)
  | _ => false

/-- The threads that wait with a reading from the window `w` on. -/
def BudgetState.waiters (s : BudgetState n) (w : ℕ) : Finset (Fin n) :=
  Finset.univ.filter fun i => (s.threads i).waitsFrom w

/-- The budget is exact: it counts the primed requests of the first window and every request
committed to the current window, and no window admitted more than `max + n - 1` requests. -/
structure BudgetExact (cfg : DailyBudgetConfig) (first primed : ℕ) (s : BudgetState n) : Prop where
  spent_eq : s.budget.spent = (if s.budget.windowStartUnix = first then primed else 0)
    + s.commits.count s.budget.windowStartUnix
  admitted : ∀ w, s.commits.count w ≤ cfg.maxRequestsPerDay + n - 1

/-- What every step that is on time preserves. The requests of the current window and the threads
about to join them fit below the bound: the last of these threads found room in the budget, and
at most all of them were under way. -/
structure BudgetInv (cfg : DailyBudgetConfig) (first primed : ℕ) (s : BudgetState n) : Prop
    extends BudgetExact cfg first primed s where
  max_eq : s.budget.max = cfg.maxRequestsPerDay
  offset_lt : s.budget.dayStartOffsetSecs < 86400
  first_le : first ≤ s.budget.windowStartUnix
  past : ∀ w ∈ s.commits, w ≤ s.budget.windowStartUnix
  within : ∀ i now, s.threads i = .waiting now → s.budget.windowStartUnix ≤ now →
    now < s.budget.windowStartUnix + 86400
  room : s.commits.count s.budget.windowStartUnix + (s.waiters s.budget.windowStartUnix).card
    ≤ cfg.maxRequestsPerDay + n - 1

theorem BudgetInv.init (n : ℕ) (cfg : DailyBudgetConfig) (now primed : ℕ) :
    BudgetInv cfg (DailyBudget.new cfg now primed).windowStartUnix primed
      (BudgetState.init n cfg now primed) where
  spent_eq := by simp [BudgetState.init, DailyBudget.new]
  admitted := fun w => Nat.zero_le _
  max_eq := rfl
  offset_lt := Nat.mod_lt _ (by omega)
  first_le := le_rfl
  past := fun w hw => absurd hw List.not_mem_nil
  within := fun i now h => absurd h (by simp [BudgetState.init])
  room := by
    have hnone : (BudgetState.init n cfg now primed).waiters
        (BudgetState.init n cfg now primed).budget.windowStartUnix = ∅ :=
      Finset.filter_eq_empty_iff.mpr fun i _ => by simp [BudgetState.init, Phase.waitsFrom]
    rw [hnone]
    exact Nat.zero_le _

/-- A later window has fewer waiters. -/
theorem BudgetState.waiters_subset (s : BudgetState n) {w w' : ℕ} (hle : w ≤ w') :
    s.waiters w' ⊆ s.waiters w := by
  intro i hi
  rw [waiters, Finset.mem_filter] at hi ⊢
  refine ⟨hi.1, ?_⟩
  have hwaits := hi.2
  rcases hphase : s.threads i with _ | now | now
  · rw [hphase] at hwaits; exact hwaits
  · rw [hphase] at hwaits; exact hwaits
  · rw [hphase] at hwaits
    have hlate : w' ≤ now := of_decide_eq_true hwaits
    exact decide_eq_true (by omega)

/-- Rolling to a time from the window's start on keeps the invariant, and the window that holds
the time is reached. -/
theorem BudgetInv.roll {s : BudgetState n} (h : BudgetInv cfg first primed s) {now : ℕ}
    (hle : s.budget.windowStartUnix ≤ now) (hnow : now < 2 ^ 63) :
    BudgetInv cfg first primed { s with budget := s.budget.roll now } ∧
      s.budget.windowStartUnix ≤ (s.budget.roll now).windowStartUnix ∧
      now < (s.budget.roll now).windowStartUnix + 86400 := by
  rcases DailyBudget.roll_of_le h.offset_lt hnow hle with ⟨hsame, hwithin⟩ | ⟨_, hlt, hwithin, hzero⟩
  · rw [hsame]
    exact ⟨h, le_rfl, hwithin⟩
  · -- no request was committed to the new window yet
    have hnone : s.commits.count (s.budget.roll now).windowStartUnix = 0 := by
      refine List.count_eq_zero.mpr fun hmem => ?_
      have := h.past _ hmem
      omega
    have hfirst : (s.budget.roll now).windowStartUnix ≠ first := by
      have := h.first_le
      omega
    refine ⟨?_, le_of_lt hlt, hwithin⟩
    constructor
    · constructor
      · show (s.budget.roll now).spent = _
        rw [hzero, if_neg hfirst, Nat.zero_add]
        exact hnone.symm
      · exact h.admitted
    · rw [← h.max_eq]
      exact DailyBudget.roll_max _ _
    · show (s.budget.roll now).dayStartOffsetSecs < 86400
      rw [DailyBudget.roll_dayStartOffsetSecs]
      exact h.offset_lt
    · exact le_trans h.first_le (le_of_lt hlt)
    · intro w hw
      exact le_trans (h.past w hw) (le_of_lt hlt)
    · intro i now' hi hle'
      have hle'' : (s.budget.roll now).windowStartUnix ≤ now' := hle'
      have := h.within i now' hi (by omega)
      show now' < (s.budget.roll now).windowStartUnix + 86400
      omega
    · have hroom := h.room
      have hcard := Finset.card_le_card (s.waiters_subset (le_of_lt hlt))
      show s.commits.count (s.budget.roll now).windowStartUnix
        + (s.waiters (s.budget.roll now).windowStartUnix).card ≤ _
      omega

/-- The waiters after a thread moved: the same, up to that thread. -/
theorem BudgetState.waiters_move (s : BudgetState n) (i : Fin n) (p : Phase) (w : ℕ) :
    (s.move i p).waiters w
      = if p.waitsFrom w then insert i (s.waiters w) else (s.waiters w).erase i := by
  ext j
  by_cases hj : j = i
  · subst hj
    by_cases hp : p.waitsFrom w = true
    · simp [waiters, move_threads, hp]
    · simp [waiters, move_threads, hp]
  · by_cases hp : p.waitsFrom w = true
    · simp [waiters, move_threads, hp, hj]
    · simp [waiters, move_threads, hp, hj]

/-- A thread that goes to the token bucket after finding room keeps the invariant. -/
theorem BudgetInv.wait {s : BudgetState n} (h : BudgetInv cfg first primed s) (i : Fin n)
    {now : ℕ} (hwithin : now < s.budget.windowStartUnix + 86400)
    (hroom : s.budget.spent < s.budget.max) :
    BudgetInv cfg first primed (s.move i (.waiting now)) := by
  refine ⟨⟨h.spent_eq, h.admitted⟩, h.max_eq, h.offset_lt, h.first_le, h.past, ?_, ?_⟩
  · intro j now' hj hle
    rw [BudgetState.move_threads] at hj
    by_cases hji : j = i
    · rw [if_pos hji] at hj
      exact Phase.waiting.inj hj ▸ hwithin
    · rw [if_neg hji] at hj
      exact h.within j now' hj hle
  · -- every thread waits at most, and one of the places below `max` is free
    have hcard : ((s.move i (.waiting now)).waiters s.budget.windowStartUnix).card ≤ n := by
      have := Finset.card_le_univ ((s.move i (.waiting now)).waiters s.budget.windowStartUnix)
      rwa [Fintype.card_fin] at this
    have hspent := h.spent_eq
    have hmax := h.max_eq
    show s.commits.count s.budget.windowStartUnix
      + ((s.move i (.waiting now)).waiters s.budget.windowStartUnix).card ≤ _
    omega

/-- A thread that does not go to the token bucket keeps the invariant. -/
theorem BudgetInv.move_off {s : BudgetState n} (h : BudgetInv cfg first primed s) (i : Fin n)
    {p : Phase} (hp : ∀ now, p ≠ .waiting now) : BudgetInv cfg first primed (s.move i p) := by
  refine ⟨⟨h.spent_eq, h.admitted⟩, h.max_eq, h.offset_lt, h.first_le, h.past, ?_, ?_⟩
  · intro j now hj hle
    rw [BudgetState.move_threads] at hj
    by_cases hji : j = i
    · rw [if_pos hji] at hj
      exact absurd hj (hp now)
    · rw [if_neg hji] at hj
      exact h.within j now hj hle
  · have hoff : p.waitsFrom s.budget.windowStartUnix = false := by
      rcases p with _ | now | now
      · rfl
      · rfl
      · exact absurd rfl (hp now)
    have hcard : ((s.move i p).waiters s.budget.windowStartUnix).card
        ≤ (s.waiters s.budget.windowStartUnix).card := by
      rw [BudgetState.waiters_move, hoff]
      exact Finset.card_le_card (Finset.erase_subset _ _)
    have hroom := h.room
    show s.commits.count s.budget.windowStartUnix
      + ((s.move i p).waiters s.budget.windowStartUnix).card ≤ _
    omega

/-- A record of a waiting thread, with a reading from the window's start on, is counted in the
window it was checked in. -/
theorem BudgetInv.record {s : BudgetState n} (h : BudgetInv cfg first primed s) {i : Fin n}
    {now : ℕ} (hi : s.threads i = .waiting now) (hle : s.budget.windowStartUnix ≤ now)
    (hnow : now < 2 ^ 63) (hspent : s.budget.spent < 2 ^ 32 - 1) :
    BudgetInv cfg first primed
      { s.move i .idle with
        budget := s.budget.record now
        commits := (s.budget.roll now).windowStartUnix :: s.commits } := by
  -- the window still holds the reading, so nothing rolls
  have hsame : s.budget.roll now = s.budget := by
    have hwithin := h.within i now hi hle
    rcases DailyBudget.roll_of_le h.offset_lt hnow hle with ⟨hsame, _⟩ | ⟨hend, _, _, _⟩
    · exact hsame
    · omega
  have hcounts : satAddU32 s.budget.spent 1 = s.budget.spent + 1 := by
    unfold satAddU32
    omega
  have hrecord : s.budget.record now = { s.budget with spent := s.budget.spent + 1 } := by
    rw [DailyBudget.record, hsame, hcounts]
  rw [hrecord, hsame]
  -- the thread leaves the waiters and joins the requests
  have hmem : i ∈ s.waiters s.budget.windowStartUnix := by
    rw [BudgetState.waiters, Finset.mem_filter, hi]
    exact ⟨Finset.mem_univ i, decide_eq_true hle⟩
  have hleft : ((s.move i .idle).waiters s.budget.windowStartUnix).card + 1
      = (s.waiters s.budget.windowStartUnix).card := by
    rw [BudgetState.waiters_move]
    exact Finset.card_erase_add_one hmem
  have hhere : (s.budget.windowStartUnix :: s.commits).count s.budget.windowStartUnix
      = s.commits.count s.budget.windowStartUnix + 1 := List.count_cons_self
  have hroom := h.room
  refine ⟨⟨?_, fun w => ?_⟩, h.max_eq, h.offset_lt, h.first_le, fun w hw => ?_, ?_, ?_⟩
  · have hspent_eq := h.spent_eq
    show s.budget.spent + 1 = (if s.budget.windowStartUnix = first then primed else 0)
      + (s.budget.windowStartUnix :: s.commits).count s.budget.windowStartUnix
    omega
  · show (s.budget.windowStartUnix :: s.commits).count w ≤ _
    by_cases hw : w = s.budget.windowStartUnix
    · rw [hw, hhere]
      omega
    · rw [List.count_cons_of_ne (Ne.symm hw)]
      exact h.admitted w
  · rcases List.mem_cons.mp hw with rfl | hw
    · exact le_rfl
    · exact h.past w hw
  · exact (h.move_off i (p := .idle) fun _ => by simp).within
  · show (s.budget.windowStartUnix :: s.commits).count s.budget.windowStartUnix
      + ((s.move i .idle).waiters s.budget.windowStartUnix).card ≤ _
    omega

/-- A step that is on time keeps the invariant and does not move the window back. -/
theorem BudgetInv.step {s t : BudgetState n} {a : BudgetAction n}
    (h : BudgetInv cfg first primed s) (hok : OnTime s a)
    (hstep : (budgetMachine n).step s a = some t) :
    BudgetInv cfg first primed t ∧ s.budget.windowStartUnix ≤ t.budget.windowStartUnix := by
  rcases budgetMachine_step_cases hstep with ⟨now, rfl, _, rfl⟩ | ⟨i, rfl, _, rfl⟩ |
    ⟨i, now, p, rfl, hi, hp, rfl⟩ | ⟨i, now, rfl, _, rfl⟩ | ⟨i, now, rfl, hi, rfl⟩
  · exact ⟨⟨⟨h.spent_eq, h.admitted⟩, h.max_eq, h.offset_lt, h.first_le, h.past, h.within, h.room⟩,
      le_rfl⟩
  · exact ⟨h.move_off i fun _ => by simp, le_rfl⟩
  · obtain ⟨hle, hnow⟩ := hok now hi
    obtain ⟨hrolled, hmono, hwithin⟩ := h.roll hle hnow
    rcases hp with ⟨hroom, rfl⟩ | rfl
    · refine ⟨hrolled.wait i hwithin ?_, hmono⟩
      show (s.budget.roll now).spent < (s.budget.roll now).max
      rwa [DailyBudget.roll_max]
    · exact ⟨hrolled.move_off i fun _ => by simp, hmono⟩
  · exact ⟨h.move_off i fun _ => by simp, le_rfl⟩
  · obtain ⟨hle, hnow, hspent⟩ := hok now hi
    refine ⟨h.record hi hle hnow hspent, ?_⟩
    show s.budget.windowStartUnix ≤ (s.budget.roll now).windowStartUnix
    exact (h.roll hle hnow).2.1

/-- Along every run on time from a fresh client, the budget is exact in every state and the
window never moves back. -/
theorem budgetMachine_exact (n : ℕ) (cfg : DailyBudgetConfig) (now primed : ℕ)
    {s : BudgetState n} (h : (budgetMachine n).Run OnTime (.init n cfg now primed) s) :
    BudgetExact cfg (DailyBudget.new cfg now primed).windowStartUnix primed s ∧
      ∀ t, (budgetMachine n).Run OnTime s t →
        s.budget.windowStartUnix ≤ t.budget.windowStartUnix := by
  have hkeep : ∀ s a t, BudgetInv cfg (DailyBudget.new cfg now primed).windowStartUnix primed s →
      OnTime s a → (budgetMachine n).step s a = some t →
      BudgetInv cfg (DailyBudget.new cfg now primed).windowStartUnix primed t :=
    fun _ _ _ hs hok hstep => (hs.step hok hstep).1
  have hinv := h.invariant hkeep (BudgetInv.init n cfg now primed)
  refine ⟨hinv.toBudgetExact, fun t hrun => ?_⟩
  exact hrun.monotone (f := fun s => s.budget.windowStartUnix) hkeep
    (fun _ _ _ hs hok hstep => (hs.step hok hstep).2) hinv

/-- The steps of one whole request. -/
def requestOf {n : ℕ} (i : Fin n) : List (BudgetAction n) := [.readClock i, .check i, .record i]

/-- A thread that finds room goes to the token bucket. -/
theorem budgetMachine_check {s : BudgetState n} {i : Fin n} (now : ℕ)
    (hi : s.threads i = .ready now) (hroom : (s.budget.roll now).spent < s.budget.max) :
    (budgetMachine n).step s (.check i)
      = some ({ s with budget := s.budget.roll now }.move i (.waiting now)) := by
  have hok := (DailyBudget.check_ok_iff s.budget now).mpr hroom
  simp only [budgetMachine, hi, hok, DailyBudget.check_snd]

/-- A thread past the token bucket records its request. -/
theorem budgetMachine_record {s : BudgetState n} {i : Fin n} (now : ℕ)
    (hi : s.threads i = .waiting now) :
    (budgetMachine n).step s (.record i)
      = some { s.move i .idle with
          budget := s.budget.record now
          commits := (s.budget.roll now).windowStartUnix :: s.commits } := by
  simp only [budgetMachine, hi, DailyBudget.record_windowStartUnix]

/-- Two threads whose requests overlap, before and after midnight. Thread 0 finds room just before
midnight and is recorded after it, while thread 1 has read the new day already; then both find room
in the new day before either is recorded. Every record is counted in its own window. -/
theorem budgetMachine_exact_two_threads :
    ∃ s : BudgetState 2, (s.budget.windowStartUnix, s.budget.spent) = (86400, 2) ∧
      s.commits = [86400, 86400, 0] ∧ BudgetExact ⟨2, 0⟩ 0 0 s := by
  have hstart : (budgetMachine 2).Run OnTime (.init 2 ⟨2, 0⟩ 86399 0) (.init 2 ⟨2, 0⟩ 86399 0) :=
    .refl _
  have hready := hstart.tail (a := BudgetAction.readClock 0) trivial rfl
  have hwaiting := hready.tail (a := BudgetAction.check 0)
    (fun now hnow => by rw [← Phase.ready.inj hnow]; decide) (budgetMachine_check 86399 rfl (by decide))
  have hmidnight := hwaiting.tail (a := BudgetAction.tick 86400) trivial rfl
  have hother := hmidnight.tail (a := BudgetAction.readClock 1) trivial rfl
  have hrecorded := hother.tail (a := BudgetAction.record 0)
    (fun now hnow => by rw [← Phase.waiting.inj hnow]; decide) (budgetMachine_record 86399 rfl)
  have hagain := hrecorded.tail (a := BudgetAction.readClock 0) trivial rfl
  -- the check of thread 1 rolls the window to the new day
  have hrolled := hagain.tail (a := BudgetAction.check 1)
    (fun now hnow => by rw [← Phase.ready.inj hnow]; decide) (budgetMachine_check 86400 rfl (by decide))
  have hboth := hrolled.tail (a := BudgetAction.check 0)
    (fun now hnow => by rw [← Phase.ready.inj hnow]; decide) (budgetMachine_check 86400 rfl (by decide))
  have hfirst := hboth.tail (a := BudgetAction.record 0)
    (fun now hnow => by rw [← Phase.waiting.inj hnow]; decide) (budgetMachine_record 86400 rfl)
  have hdone := hfirst.tail (a := BudgetAction.record 1)
    (fun now hnow => by rw [← Phase.waiting.inj hnow]; decide) (budgetMachine_record 86400 rfl)
  exact ⟨_, by decide, by decide, (budgetMachine_exact 2 ⟨2, 0⟩ 86399 0 hdone).1⟩

/-- Two threads across midnight, with a budget of two. Thread 0 reads the clock and finds room just
before midnight, and waits. Thread 1 spends the budget of the new day. The record of thread 0
rolls the window back and drops that count, so thread 1 spends the budget of the new day again:
the day has admitted four requests. -/
theorem budgetMachine_loses_count :
    let start := BudgetState.init 2 ⟨2, 0⟩ 86399 0
    let before := [.readClock 0, .check 0, .tick 86400] ++ requestOf 1 ++ requestOf 1
    let window (s : BudgetState 2) := (s.budget.windowStartUnix, s.budget.spent)
    ((budgetMachine 2).exec before start).map window = some (86400, 2) ∧
      ((budgetMachine 2).exec (before ++ [.record 0]) start).map window = some (0, 1) ∧
      ((budgetMachine 2).exec (before ++ [.record 0] ++ requestOf 1 ++ requestOf 1) start).map
        (fun s => (window s, s.commits.count 86400)) = some ((86400, 2), 4) ∧
      ¬ ∀ s, (budgetMachine 2).Run (fun _ _ => True) start s →
        BudgetExact ⟨2, 0⟩ start.budget.windowStartUnix 0 s := by
  intro start before window
  have hlast : ((budgetMachine 2).exec (before ++ [.record 0] ++ requestOf 1 ++ requestOf 1)
      start).map (fun s => (window s, s.commits.count 86400)) = some ((86400, 2), 4) := by decide
  refine ⟨by decide, by decide, hlast, fun h => ?_⟩
  obtain ⟨s, hs, hcount⟩ := Option.map_eq_some_iff.mp hlast
  have hexact := (h s (.of_exec hs)).admitted 86400
  rw [(Prod.mk.inj hcount).2] at hexact
  exact absurd hexact (by decide)

end BlockchainOps.Algo
