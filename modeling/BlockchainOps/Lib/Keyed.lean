import Mathlib.Data.List.Basic
import Mathlib.Data.List.Nodup

/-!
# Lists of pairs keyed by their first component

`upsert` replaces the value of the first pair with a key, or appends a new pair; `remove`
drops every pair with a key; `edit` is one or the other. Batches of edits of distinct keys
are described by what a lookup sees afterwards (`lookup_applyEdits`), and change nothing
exactly when every edit asks for what is there already (`applyEdits_eq_self_iff`).
-/

namespace Keyed

variable {α β : Type} [DecidableEq α]

/-- Replace the value of the first pair with key `a`, or append the pair `(a, b)`. -/
def upsert (a : α) (b : β) : List (α × β) → List (α × β)
  | [] => [(a, b)]
  | (k, v) :: l => if k = a then (k, b) :: l else (k, v) :: upsert a b l

/-- Drop every pair with key `a`. -/
def remove (a : α) (l : List (α × β)) : List (α × β) := l.filter fun p => p.1 ≠ a

/-- Set the value of `a`, or drop it. -/
def edit (l : List (α × β)) : α × Option β → List (α × β)
  | (a, some b) => upsert a b l
  | (a, none) => remove a l

/-- Edits one after the other. -/
def applyEdits (l : List (α × β)) (es : List (α × Option β)) : List (α × β) := es.foldl edit l

@[simp] theorem applyEdits_nil (l : List (α × β)) : applyEdits l [] = l := rfl

@[simp] theorem applyEdits_cons (l : List (α × β)) (e : α × Option β) (es : List (α × Option β)) :
    applyEdits l (e :: es) = applyEdits (edit l e) es := rfl

/-! ## Lookups -/

theorem lookup_cons_eq (k : α) (p : α × β) (l : List (α × β)) :
    (p :: l).lookup k = if k = p.1 then some p.2 else l.lookup k := by
  obtain ⟨a, b⟩ := p
  by_cases h : k = a
  · subst h; simp
  · simp [List.lookup_cons, h, beq_eq_false_iff_ne.mpr h]

theorem lookup_upsert (k a : α) (b : β) (l : List (α × β)) :
    (upsert a b l).lookup k = if k = a then some b else l.lookup k := by
  induction l with
  | nil => simp [upsert, lookup_cons_eq]
  | cons p l ih =>
    obtain ⟨c, v⟩ := p
    unfold upsert
    by_cases hca : c = a
    · rw [if_pos hca, lookup_cons_eq, lookup_cons_eq]
      by_cases hka : k = a
      · simp [hka, hca]
      · simp [hka, hca]
    · rw [if_neg hca, lookup_cons_eq, lookup_cons_eq, ih]
      by_cases hkc : k = c
      · subst hkc; simp [hca]
      · simp [hkc]

/-- The last value put at a key is the one that stays. -/
theorem upsert_upsert (a : α) (b c : β) (l : List (α × β)) :
    upsert a c (upsert a b l) = upsert a c l := by
  induction l with
  | nil => simp [upsert]
  | cons p l ih =>
    obtain ⟨k, v⟩ := p
    by_cases h : k = a
    · simp [upsert, h]
    · simp [upsert, h, ih]

theorem lookup_remove (k a : α) (l : List (α × β)) :
    (remove a l).lookup k = if k = a then none else l.lookup k := by
  induction l with
  | nil => simp [remove]
  | cons p l ih =>
    obtain ⟨c, v⟩ := p
    unfold remove at ih ⊢
    by_cases hca : c = a
    · subst hca
      rw [List.filter_cons_of_neg (by simp), ih, lookup_cons_eq]
      by_cases hkc : k = c <;> simp [hkc]
    · rw [List.filter_cons_of_pos (by simpa using hca), lookup_cons_eq, lookup_cons_eq, ih]
      by_cases hkc : k = c
      · subst hkc; simp [hca]
      · simp [hkc]

/-- After an edit a lookup sees what was asked for at its key, and the old pairs elsewhere. -/
theorem lookup_edit (k : α) (l : List (α × β)) (e : α × Option β) :
    (edit l e).lookup k = if k = e.1 then e.2 else l.lookup k := by
  obtain ⟨a, o⟩ := e
  cases o with
  | some b => exact lookup_upsert k a b l
  | none => exact lookup_remove k a l

/-- Edits of other keys are not seen by a lookup. -/
theorem lookup_applyEdits_of_notMem {k : α} {es : List (α × Option β)}
    (h : k ∉ es.map Prod.fst) (l : List (α × β)) :
    (applyEdits l es).lookup k = l.lookup k := by
  induction es generalizing l with
  | nil => rfl
  | cons e es ih =>
    simp only [List.map_cons, List.mem_cons, not_or] at h
    rw [applyEdits_cons, ih h.2, lookup_edit, if_neg h.1]

/-- A batch of edits of distinct keys sets each key to what its edit asks for. -/
theorem lookup_applyEdits {k : α} {o : Option β} {es : List (α × Option β)}
    (hnd : (es.map Prod.fst).Nodup) (h : (k, o) ∈ es) (l : List (α × β)) :
    (applyEdits l es).lookup k = o := by
  induction es generalizing l with
  | nil => simp at h
  | cons e es ih =>
    rw [List.map_cons, List.nodup_cons] at hnd
    rw [applyEdits_cons]
    rcases List.mem_cons.mp h with rfl | hmem
    · rw [lookup_applyEdits_of_notMem hnd.1, lookup_edit, if_pos rfl]
    · exact ih hnd.2 hmem _

/-! ## Pairs made from records -/

section Records

variable {γ : Type} (key : γ → α) (f : γ → Option β)

/-- No record with the key, no pair with it. -/
theorem lookup_filterMap_of_notMem {l : List γ} {a : α} (h : a ∉ l.map key) :
    (l.filterMap fun c => (f c).map fun b => (key c, b)).lookup a = none := by
  refine List.lookup_eq_none_iff.mpr fun p hp => ?_
  obtain ⟨c, hc, hcp⟩ := List.mem_filterMap.mp hp
  obtain ⟨b, _, rfl⟩ := Option.map_eq_some_iff.mp hcp
  have hne : a ≠ key c := fun he => h (he ▸ List.mem_map_of_mem hc)
  simpa using hne

/-- Among records with distinct keys, the pair of a key is made from the record with it. -/
theorem lookup_filterMap_of_mem {l : List γ} (hnd : (l.map key).Nodup) {c : γ} (hc : c ∈ l) :
    (l.filterMap fun c => (f c).map fun b => (key c, b)).lookup (key c) = f c := by
  induction l with
  | nil => simp at hc
  | cons d l ih =>
    rw [List.map_cons, List.nodup_cons] at hnd
    rcases List.mem_cons.mp hc with rfl | hmem
    · rw [List.filterMap_cons]
      rcases hf : f c with _ | b
      · exact lookup_filterMap_of_notMem key f hnd.1
      · simp
    · have hne : key c ≠ key d := fun he => hnd.1 (he ▸ List.mem_map_of_mem hmem)
      rw [List.filterMap_cons]
      rcases f d with _ | b
      · exact ih hnd.2 hmem
      · show List.lookup _ ((key d, b) :: _) = _
        rw [lookup_cons_eq, if_neg hne]
        exact ih hnd.2 hmem

/-- Records with distinct keys make pairs with distinct keys. -/
theorem nodup_keys_filterMap {l : List γ} (hnd : (l.map key).Nodup) :
    ((l.filterMap fun c => (f c).map fun b => (key c, b)).map Prod.fst).Nodup := by
  induction l with
  | nil => simp
  | cons d l ih =>
    rw [List.map_cons, List.nodup_cons] at hnd
    rw [List.filterMap_cons]
    rcases f d with _ | b
    · exact ih hnd.2
    · show ((key d, b) :: _).map Prod.fst |>.Nodup
      rw [List.map_cons, List.nodup_cons]
      refine ⟨fun hmem => hnd.1 ?_, ih hnd.2⟩
      by_contra hout
      obtain ⟨p, hp, hpd⟩ := List.mem_map.mp hmem
      have hnone := lookup_filterMap_of_notMem key f hout
      have hne := List.lookup_eq_none_iff.mp hnone p hp
      rw [hpd] at hne
      simp at hne

end Records

/-! ## Where pairs come from -/

theorem mem_upsert {a : α} {b : β} {p : α × β} {l : List (α × β)} (h : p ∈ upsert a b l) :
    p = (a, b) ∨ p ∈ l := by
  induction l with
  | nil => exact Or.inl (List.mem_singleton.mp h)
  | cons q l ih =>
    obtain ⟨c, v⟩ := q
    unfold upsert at h
    by_cases hca : c = a
    · rw [if_pos hca, hca] at h
      exact (List.mem_cons.mp h).imp id (List.mem_cons_of_mem _)
    · rw [if_neg hca] at h
      rcases List.mem_cons.mp h with hq | hmem
      · exact Or.inr (hq ▸ List.mem_cons_self)
      · exact (ih hmem).imp id (List.mem_cons_of_mem _)

/-- A pair is there after an edit because the edit put it there, or from before. -/
theorem mem_edit {e : α × Option β} {p : α × β} {l : List (α × β)} (h : p ∈ edit l e) :
    e = (p.1, some p.2) ∨ p ∈ l := by
  obtain ⟨a, o⟩ := e
  cases o with
  | some b =>
    apply (mem_upsert h).imp _ id
    intro hp
    rw [hp]
  | none => exact Or.inr (List.mem_of_mem_filter h)

theorem mem_applyEdits {es : List (α × Option β)} {p : α × β} {l : List (α × β)}
    (h : p ∈ applyEdits l es) : (p.1, some p.2) ∈ es ∨ p ∈ l := by
  induction es generalizing l with
  | nil => exact Or.inr h
  | cons e es ih =>
    rcases ih h with hlater | hhere
    · exact Or.inl (List.mem_cons_of_mem _ hlater)
    · rcases mem_edit hhere with hput | hold
      · exact Or.inl (List.mem_cons.mpr (Or.inl hput.symm))
      · exact Or.inr hold

/-- Among pairs with distinct keys a lookup sees every pair. -/
theorem mem_iff_lookup {p : α × β} {l : List (α × β)} (hnd : (l.map Prod.fst).Nodup) :
    p ∈ l ↔ l.lookup p.1 = some p.2 := by
  induction l with
  | nil => simp
  | cons q l ih =>
    rw [List.map_cons, List.nodup_cons] at hnd
    rw [List.mem_cons, lookup_cons_eq]
    by_cases hkey : p.1 = q.1
    · rw [if_pos hkey, Option.some.injEq]
      constructor
      · rintro (rfl | hmem)
        · rfl
        · exact absurd (hkey ▸ List.mem_map_of_mem hmem) hnd.1
      · exact fun hvalue => Or.inl (Prod.ext hkey hvalue.symm)
    · rw [if_neg hkey, ← ih hnd.2]
      exact or_iff_right fun he => hkey (congrArg Prod.fst he)

/-! ## Edits that change nothing -/

theorem upsert_of_lookup {a : α} {b : β} {l : List (α × β)} (h : l.lookup a = some b) :
    upsert a b l = l := by
  induction l with
  | nil => simp at h
  | cons p l ih =>
    obtain ⟨c, v⟩ := p
    rw [lookup_cons_eq] at h
    unfold upsert
    by_cases hca : c = a
    · rw [if_pos hca]
      rw [if_pos hca.symm] at h
      simpa using h.symm
    · rw [if_neg hca]
      rw [if_neg (Ne.symm hca)] at h
      rw [ih h]

theorem remove_of_lookup {a : α} {l : List (α × β)} (h : l.lookup a = none) :
    remove a l = l := by
  refine List.filter_eq_self.mpr fun p hp => ?_
  have hne : a ≠ p.1 := by
    simpa using List.lookup_eq_none_iff.mp h p hp
  simpa using hne.symm

/-- An edit changes nothing when its key already has the value it asks for. -/
theorem edit_of_lookup {l : List (α × β)} {e : α × Option β} (h : l.lookup e.1 = e.2) :
    edit l e = l := by
  obtain ⟨a, o⟩ := e
  cases o with
  | some b => exact upsert_of_lookup h
  | none => exact remove_of_lookup h

/-- A batch of edits of distinct keys changes nothing exactly when each edit asks for the
value its key has already. -/
theorem applyEdits_eq_self_iff {es : List (α × Option β)} (hnd : (es.map Prod.fst).Nodup)
    (l : List (α × β)) : applyEdits l es = l ↔ ∀ e ∈ es, l.lookup e.1 = e.2 := by
  constructor
  · intro h e he
    have hset := lookup_applyEdits (o := e.2) hnd he l
    rwa [h] at hset
  · intro h
    clear hnd
    induction es with
    | nil => rfl
    | cons e es ih =>
      rw [applyEdits_cons, edit_of_lookup (h e List.mem_cons_self)]
      exact ih fun e' he' => h e' (List.mem_cons_of_mem _ he')

/-! ## Distinct keys -/

theorem mem_keys_upsert {k a : α} {b : β} {l : List (α × β)}
    (h : k ∈ (upsert a b l).map Prod.fst) : k = a ∨ k ∈ l.map Prod.fst := by
  induction l with
  | nil => simpa [upsert] using h
  | cons p l ih =>
    obtain ⟨c, v⟩ := p
    unfold upsert at h
    by_cases hca : c = a
    · rw [if_pos hca] at h
      exact Or.inr h
    · rw [if_neg hca, List.map_cons, List.mem_cons] at h
      rcases h with h | h
      · exact Or.inr (by simp [h])
      · rcases ih h with h | h
        · exact Or.inl h
        · exact Or.inr (List.mem_cons_of_mem _ h)

theorem nodup_keys_upsert (a : α) (b : β) {l : List (α × β)} (h : (l.map Prod.fst).Nodup) :
    ((upsert a b l).map Prod.fst).Nodup := by
  induction l with
  | nil => simp [upsert]
  | cons p l ih =>
    obtain ⟨c, v⟩ := p
    rw [List.map_cons, List.nodup_cons] at h
    unfold upsert
    by_cases hca : c = a
    · rw [if_pos hca]
      simpa using h
    · rw [if_neg hca, List.map_cons, List.nodup_cons]
      refine ⟨fun hmem => ?_, ih h.2⟩
      rcases mem_keys_upsert hmem with hc | hc
      · exact hca hc
      · exact h.1 hc

theorem nodup_keys_edit (e : α × Option β) {l : List (α × β)} (h : (l.map Prod.fst).Nodup) :
    ((edit l e).map Prod.fst).Nodup := by
  obtain ⟨a, o⟩ := e
  cases o with
  | some b => exact nodup_keys_upsert a b h
  | none => exact h.sublist (List.filter_sublist.map _)

theorem nodup_keys_applyEdits (es : List (α × Option β)) {l : List (α × β)}
    (h : (l.map Prod.fst).Nodup) : ((applyEdits l es).map Prod.fst).Nodup := by
  induction es generalizing l with
  | nil => exact h
  | cons e es ih => exact ih (nodup_keys_edit e h)

end Keyed
