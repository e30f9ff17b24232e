import Mathlib.Logic.Function.Iterate
import Mathlib.Data.List.Basic
import Mathlib.Order.Defs.Unbundled

/-!
# Metering: requests that are admitted one by one

A `Meter` says which changes of a state admit one request, which send an admitted request,
which are quiet, and when an admitted request is lost before it is sent. `m.Run s rs t` leads
from `s` to `t` sending exactly the requests `rs`, each after an admission of its own.

A quantity that only admissions change follows the number of requests (`Run.iterate`), every
request has an admission at the moment before it (`Run.admitted`), and a run of one meter is a
run of any meter it maps to (`Run.map`).
-/

/-- How the changes of a state `S` concern the requests `R`. -/
structure Meter (S R : Type) where
  quiet : S → S → Prop
  grant : S → S → Prop
  send : R → S → S → Prop
  /-- Here an admitted request is given up without being sent. -/
  lost : S → Prop

namespace Meter

variable {S T R M : Type} {m : Meter S R} {s t u : S} {rs rs' : List R}

/-- A run that sends the requests of a list, each after its own admission. -/
inductive Run (m : Meter S R) : S → List R → S → Prop
  | refl (s : S) : Run m s [] s
  | quiet {s t u : S} {rs : List R} (hst : m.quiet s t) (h : Run m t rs u) : Run m s rs u
  | request {s t t' u : S} {r : R} {rs : List R} (hgrant : m.grant s t) (hsend : m.send r t t')
      (h : Run m t' rs u) : Run m s (r :: rs) u
  | lost {s t u : S} {rs : List R} (hgrant : m.grant s t) (hlost : m.lost t) (h : Run m t rs u) :
      Run m s rs u

namespace Run

theorem trans (h : m.Run s rs t) (h' : m.Run t rs' u) : m.Run s (rs ++ rs') u := by
  induction h with
  | refl => exact h'
  | quiet hst _ ih => exact .quiet hst (ih h')
  | request hgrant hsend _ ih => exact .request hgrant hsend (ih h')
  | lost hgrant hlost _ ih => exact .lost hgrant hlost (ih h')

/-- A log that only sending extends, by the request sent, records the requests of a run. -/
theorem history (log : S → List R) (hquiet : ∀ s t, m.quiet s t → log t = log s)
    (hgrant : ∀ s t, m.grant s t → log t = log s)
    (hsend : ∀ r s t, m.send r s t → log t = log s ++ [r]) (h : m.Run s rs t) :
    log t = log s ++ rs := by
  induction h with
  | refl => exact (List.append_nil _).symm
  | quiet hst _ ih => rw [ih, hquiet _ _ hst]
  | request ha hs _ ih => rw [ih, hsend _ _ _ hs, hgrant _ _ ha, List.append_assoc]; rfl
  | lost ha _ _ ih => rw [ih, hgrant _ _ ha]

/-- A quantity that each admission changes by `g`, and nothing else changes, is changed once
for each request, where no admitted request is lost. -/
theorem iterate {f : S → M} {g : M → M} (hnone : ∀ s, ¬ m.lost s)
    (hquiet : ∀ s t, m.quiet s t → f t = f s) (hgrant : ∀ s t, m.grant s t → f t = g (f s))
    (hsend : ∀ r s t, m.send r s t → f t = f s) (h : m.Run s rs t) :
    f t = g^[rs.length] (f s) := by
  induction h with
  | refl => rfl
  | quiet hst _ ih => rw [ih, hquiet _ _ hst]
  | request ha hs _ ih =>
    rw [ih, hsend _ _ _ hs, hgrant _ _ ha, List.length_cons, Function.iterate_succ_apply]
  | lost _ hlost _ _ => exact absurd hlost (hnone _)

/-- Every request of a run has an admission at the moment before it is sent. -/
theorem admitted {xs ys : List R} {r : R} (h : m.Run s (xs ++ r :: ys) t) :
    ∃ a b c, m.Run s xs a ∧ m.grant a b ∧ m.send r b c ∧ m.Run c ys t := by
  generalize hrs : xs ++ r :: ys = rs at h
  induction h generalizing xs with
  | refl => exact absurd hrs (by simp)
  | quiet hst _ ih =>
    obtain ⟨a, b, c, hxs, hgrant, hsend, hys⟩ := ih hrs
    exact ⟨a, b, c, .quiet hst hxs, hgrant, hsend, hys⟩
  | @request s₀ t₀ u₀ _ r₀ _ hgrant₀ hsend₀ hrest ih =>
    rcases xs with _ | ⟨x, xs⟩
    · -- the request is the first one of the run
      rw [List.nil_append, List.cons.injEq] at hrs
      obtain ⟨rfl, rfl⟩ := hrs
      exact ⟨s₀, t₀, u₀, .refl s₀, hgrant₀, hsend₀, hrest⟩
    · rw [List.cons_append, List.cons.injEq] at hrs
      obtain ⟨rfl, htail⟩ := hrs
      obtain ⟨a, b, c, hxs, hgrant, hsend, hys⟩ := ih htail
      exact ⟨a, b, c, .request hgrant₀ hsend₀ hxs, hgrant, hsend, hys⟩
  | lost hgrant₀ hlost _ ih =>
    obtain ⟨a, b, c, hxs, hgrant, hsend, hys⟩ := ih hrs
    exact ⟨a, b, c, .lost hgrant₀ hlost hxs, hgrant, hsend, hys⟩

/-- What every change keeps holds along a run, which is a run of any meter that has these changes
where it holds. -/
theorem strengthen {n : Meter S R} {I : S → Prop}
    (hquiet : ∀ s t, I s → m.quiet s t → n.quiet s t ∧ I t)
    (hgrant : ∀ s t, I s → m.grant s t → n.grant s t ∧ I t)
    (hsend : ∀ r s t, I s → m.send r s t → n.send r s t ∧ I t)
    (hlost : ∀ s, m.lost s → n.lost s) (h : m.Run s rs t) (hs : I s) : n.Run s rs t ∧ I t := by
  induction h with
  | refl => exact ⟨.refl _, hs⟩
  | quiet hst _ ih =>
    obtain ⟨hquiet', hkept⟩ := hquiet _ _ hs hst
    obtain ⟨hrun, hlast⟩ := ih hkept
    exact ⟨.quiet hquiet' hrun, hlast⟩
  | request ha hr _ ih =>
    obtain ⟨hgrant', hadmitted⟩ := hgrant _ _ hs ha
    obtain ⟨hsend', hkept⟩ := hsend _ _ _ hadmitted hr
    obtain ⟨hrun, hlast⟩ := ih hkept
    exact ⟨.request hgrant' hsend' hrun, hlast⟩
  | lost ha hl _ ih =>
    obtain ⟨hgrant', hadmitted⟩ := hgrant _ _ hs ha
    obtain ⟨hrun, hlast⟩ := ih hadmitted
    exact ⟨.lost hgrant' (hlost _ hl) hrun, hlast⟩

/-- A map that takes each change of a meter to a change of the same kind takes runs to runs. -/
theorem map {n : Meter T R} (f : S → T) (hquiet : ∀ s t, m.quiet s t → n.quiet (f s) (f t))
    (hgrant : ∀ s t, m.grant s t → n.grant (f s) (f t))
    (hsend : ∀ r s t, m.send r s t → n.send r (f s) (f t))
    (hlost : ∀ s, m.lost s → n.lost (f s)) (h : m.Run s rs t) : n.Run (f s) rs (f t) := by
  induction h with
  | refl => exact .refl _
  | quiet hst _ ih => exact .quiet (hquiet _ _ hst) ih
  | request ha hs _ ih => exact .request (hgrant _ _ ha) (hsend _ _ _ hs) ih
  | lost ha hl _ ih => exact .lost (hgrant _ _ ha) (hlost _ hl) ih

end Run

/-- Some run leads from one state to the other. -/
def Reaches (m : Meter S R) (s t : S) : Prop := ∃ rs, m.Run s rs t

namespace Reaches

instance : Std.Refl m.Reaches := ⟨fun s => ⟨[], .refl s⟩⟩

instance : IsTrans S m.Reaches := ⟨fun _ _ _ ⟨_, h⟩ ⟨_, h'⟩ => ⟨_, h.trans h'⟩⟩

theorem of_quiet (h : m.quiet s t) : m.Reaches s t := ⟨[], .quiet h (.refl t)⟩

theorem of_request {r : R} (hgrant : m.grant s t) (hsend : m.send r t u) : m.Reaches s u :=
  ⟨[r], .request hgrant hsend (.refl u)⟩

theorem of_lost (hgrant : m.grant s t) (hlost : m.lost t) : m.Reaches s t :=
  ⟨[], .lost hgrant hlost (.refl t)⟩

end Reaches

end Meter
