import BlockchainOps.Lib.Effect

/-!
# Paging loops

A paged read asks for a page, then for the page its token names, until a page carries no
token. `walk` is the bare conversation with the server: the pages it served, in order, and
how the conversation ended. `pageLoop` is a program that also folds every page into a shared
value and a local accumulator as it arrives.

`pageLoop_apply` separates the two: whatever the fold does, the pages are those of `walk`,
and the values reached are the fold over them, also when the walk ended in an error.
`visits` and `visitAll` are the same for one question about each element of a list.

`Serves` says which pages a server serves in a conversation that comes to its end. Any loop over
the pages that takes them one at a time is then a search or a fold of the list of pages.
-/

namespace Paging

open Effect Proc

variable {σ κ ε P γ τ α β : Type}

/-- A conversation with the server: the pages served, how it ended, the server's state. -/
structure Walk (σ ε P : Type) where
  pages : List P
  outcome : Outcome ε Unit
  world : σ

/-- Put a served page in front of the rest of a conversation. -/
def Walk.cons (p : P) (w : Walk σ ε P) : Walk σ ε P := { w with pages := p :: w.pages }

@[simp] theorem Walk.cons_pages (p : P) (w : Walk σ ε P) : (w.cons p).pages = p :: w.pages := rfl
@[simp] theorem Walk.cons_outcome (p : P) (w : Walk σ ε P) : (w.cons p).outcome = w.outcome := rfl
@[simp] theorem Walk.cons_world (p : P) (w : Walk σ ε P) : (w.cons p).world = w.world := rfl

/-- Fetch pages from the token `tok` on, following the tokens of the pages. -/
def walk (fetch : Option τ → Proc σ ε P) (next : P → Option τ) :
    ℕ → Option τ → σ → Walk σ ε P
  | 0, _, s => ⟨[], .stop .fuel, s⟩
  | n + 1, tok, s =>
    match fetch tok s with
    | (.ok p, s') =>
      match next p with
      | some t => (walk fetch next n (some t) s').cons p
      | none => ⟨[p], .ok (), s'⟩
    | (.err e, s') => ⟨[], .err e, s'⟩
    | (.stop w, s') => ⟨[], .stop w, s'⟩

/-- Fetch pages as `walk` does, folding each into the shared value and the accumulator. -/
def pageLoop (fetch : Option τ → Proc σ ε P) (next : P → Option τ)
    (absorb : κ × γ → P → κ × γ) (fuel : ℕ) (init : γ) : Proc (κ × σ) ε γ :=
  loop (fun c : Option τ × γ => do
    let page ← onSnd (fetch c.1)
    let shared ← get
    let absorbed := absorb (shared.1, c.2) page
    modify fun s => (absorbed.1, s.2)
    match next page with
    | some token => pure (.inl (some token, absorbed.2))
    | none => pure (.inr absorbed.2)) fuel (none, init)

/-- Ask about every element in turn: the elements answered for, with their answers. -/
def visits (ask : α → Proc σ ε β) : List α → σ → Walk σ ε (α × β)
  | [], s => ⟨[], .ok (), s⟩
  | a :: as, s =>
    match ask a s with
    | (.ok b, s') => (visits ask as s').cons (a, b)
    | (.err e, s') => ⟨[], .err e, s'⟩
    | (.stop w, s') => ⟨[], .stop w, s'⟩

/-- Ask about every element in turn, folding each answer into the shared value. -/
def visitAll (ask : α → Proc σ ε β) (absorb : κ → α × β → κ) (as : List α) :
    Proc (κ × σ) ε Unit := do
  let _ ← forEach (fun a => do
    let b ← onSnd (ask a)
    modify fun s => (absorb s.1 (a, b), s.2)) as
  pure ()

/-- A server that gives the scripted answers, one for each request. -/
def scripted : Proc (List (Except ε P)) ε P
  | [] => (.stop .panic, [])
  | .ok p :: rest => (.ok p, rest)
  | .error e :: rest => (.err e, rest)

/-- A completed conversation served at least one page. -/
theorem walk_pages_ne_nil {fetch : Option τ → Proc σ ε P} {next : P → Option τ} {n : ℕ}
    {tok : Option τ} {s : σ} (h : (walk fetch next n tok s).outcome = .ok ()) :
    (walk fetch next n tok s).pages ≠ [] := by
  cases n with
  | zero => simp [walk] at h
  | succ n =>
    unfold walk at h ⊢
    rcases hf : fetch tok s with ⟨o, s'⟩
    rw [hf] at h
    cases o with
    | ok p => cases hn : next p <;> simp [hn]
    | err e => simp at h
    | stop w => simp at h

/-- The loop of `pageLoop`, from any token and accumulator. -/
private theorem loop_eq_walk (fetch : Option τ → Proc σ ε P) (next : P → Option τ)
    (absorb : κ × γ → P → κ × γ) (fuel : ℕ) :
    ∀ (tok : Option τ) (g : γ) (k : κ) (s : σ),
      loop (fun c : Option τ × γ => do
        let page ← onSnd (fetch c.1)
        let shared ← get
        let absorbed := absorb (shared.1, c.2) page
        modify fun s => (absorbed.1, s.2)
        match next page with
        | some token => pure (.inl (some token, absorbed.2))
        | none => pure (.inr absorbed.2)) fuel (tok, g) (k, s)
      = ((walk fetch next fuel tok s).outcome.map
            fun _ => ((walk fetch next fuel tok s).pages.foldl absorb (k, g)).2,
          ((walk fetch next fuel tok s).pages.foldl absorb (k, g)).1,
          (walk fetch next fuel tok s).world) := by
  induction fuel with
  | zero => intro tok g k s; rfl
  | succ n ih =>
    intro tok g k s
    unfold loop walk
    rcases hf : fetch tok s with ⟨o, s'⟩
    cases o with
    | ok p =>
      cases hn : next p with
      | some t =>
        simp only [bind_apply, onSnd_apply, hf, get_apply, modify_apply, hn, pure_apply, ih,
          Walk.cons_pages, Walk.cons_outcome, Walk.cons_world, List.foldl_cons]
      | none => simp [bind_apply, hf, hn]
    | err e => simp [bind_apply, hf]
    | stop w => simp [bind_apply, hf]

/-- A paging loop is the fold over the pages of the conversation, however it ends. -/
theorem pageLoop_apply (fetch : Option τ → Proc σ ε P) (next : P → Option τ)
    (absorb : κ × γ → P → κ × γ) (fuel : ℕ) (g : γ) (k : κ) (s : σ) :
    pageLoop fetch next absorb fuel g (k, s)
      = ((walk fetch next fuel none s).outcome.map
            fun _ => ((walk fetch next fuel none s).pages.foldl absorb (k, g)).2,
          ((walk fetch next fuel none s).pages.foldl absorb (k, g)).1,
          (walk fetch next fuel none s).world) :=
  loop_eq_walk fetch next absorb fuel none g k s

/-- Asking about every element is the fold over the answers, however it ends. -/
theorem visitAll_apply (ask : α → Proc σ ε β) (absorb : κ → α × β → κ) (as : List α) (k : κ)
    (s : σ) :
    visitAll ask absorb as (k, s)
      = ((visits ask as s).outcome, (visits ask as s).pages.foldl absorb k,
          (visits ask as s).world) := by
  induction as generalizing k s with
  | nil => rfl
  | cons a as ih =>
    rcases hask : ask a s with ⟨o, s'⟩
    cases o with
    | ok b =>
      have hrest := ih (absorb k (a, b)) s'
      unfold visitAll forEach visits
      simp only [bind_apply, onSnd_apply, hask, modify_apply, Walk.cons_pages, Walk.cons_outcome,
        Walk.cons_world, List.foldl_cons] at hrest ⊢
      rw [← hrest]
      unfold visitAll
      rw [bind_apply]
      rcases forEach _ as (absorb k (a, b), s') with ⟨r, _⟩
      rcases r with _ | _ | _ <;> rfl
    | err e => simp [visitAll, forEach, visits, bind_apply, hask]
    | stop w => simp [visitAll, forEach, visits, bind_apply, hask]

/-- The elements answered for are the first ones, in order. -/
theorem visits_fst_isPrefix (ask : α → Proc σ ε β) (as : List α) (s : σ) :
    (visits ask as s).pages.map Prod.fst <+: as := by
  induction as generalizing s with
  | nil => exact List.nil_prefix
  | cons a as ih =>
    unfold visits
    rcases ask a s with ⟨o, s'⟩
    cases o with
    | ok b => exact (List.prefix_cons_inj a).mpr (ih s')
    | err e => exact List.nil_prefix
    | stop w => exact List.nil_prefix

/-- When every question is answered, every element is answered for. -/
theorem visits_map_fst (ask : α → Proc σ ε β) (as : List α) (s : σ)
    (h : (visits ask as s).outcome = .ok ()) : (visits ask as s).pages.map Prod.fst = as := by
  induction as generalizing s with
  | nil => rfl
  | cons a as ih =>
    unfold visits at h ⊢
    rcases hask : ask a s with ⟨o, s'⟩
    rw [hask] at h
    cases o with
    | ok b => simpa using ih s' h
    | err e => simp at h
    | stop w => simp at h

/-! ## Conversations that come to their end -/

/-- From the token `tok` on the server serves these pages, the last without a token. -/
inductive Serves (fetch : Option τ → Proc σ ε P) (next : P → Option τ) :
    Option τ → σ → List P → σ → Prop
  | last {tok : Option τ} {p : P} {s t : σ} (hfetch : fetch tok s = (.ok p, t))
      (hnext : next p = none) : Serves fetch next tok s [p] t
  | more {tok : Option τ} {token : τ} {p : P} {pages : List P} {s t u : σ}
      (hfetch : fetch tok s = (.ok p, t)) (hnext : next p = some token)
      (hrest : Serves fetch next (some token) t pages u) : Serves fetch next tok s (p :: pages) u

section Served

variable {fetch : Option τ → Proc σ ε P} {next : P → Option τ} {tok : Option τ} {s t : σ}
  {pages : List P} {n : ℕ}

theorem walk_of_serves (h : Serves fetch next tok s pages t) (hn : pages.length ≤ n) :
    walk fetch next n tok s = ⟨pages, .ok (), t⟩ := by
  induction h generalizing n with
  | last hfetch hnext =>
    obtain ⟨n, rfl⟩ : ∃ n', n = n' + 1 := ⟨n - 1, by simp at hn; omega⟩
    simp only [walk, hfetch, hnext]
  | more hfetch hnext _ ih =>
    rw [List.length_cons] at hn
    obtain ⟨n, rfl⟩ : ∃ n', n = n' + 1 := ⟨n - 1, by omega⟩
    have hrest := ih (n := n) (by omega)
    simp only [walk, hfetch, hnext, hrest]
    rfl

/-- Pages that are read into others are served as these. -/
theorem Serves.map {Q : Type} {fetch' : Option τ → Proc σ ε Q} {next' : Q → Option τ} {f : P → Q}
    (hfetch' : ∀ tok s p t, fetch tok s = (.ok p, t) → fetch' tok s = (.ok (f p), t))
    (hnext' : ∀ p, next' (f p) = next p) (h : Serves fetch next tok s pages t) :
    Serves fetch' next' tok s (pages.map f) t := by
  induction h with
  | last hfetch hnext =>
    apply Serves.last (hfetch' _ _ _ _ hfetch)
    rw [hnext', hnext]
  | more hfetch hnext _ ih =>
    apply Serves.more (hfetch' _ _ _ _ hfetch) _ ih
    rw [hnext', hnext]

/-- How a search goes on after a page: it ends with what it picks from the page. -/
def afterFind (next : P → Option τ) (pick : P → Option β) (p : P) : Option τ ⊕ Option β :=
  match pick p, next p with
  | some b, _ => .inr (some b)
  | none, some token => .inl (some token)
  | none, none => .inr none

theorem afterFind_of_some {pick : P → Option β} {p : P} {b : β} (h : pick p = some b) :
    afterFind next pick p = .inr (some b) := by
  unfold afterFind
  rw [h]

theorem afterFind_of_none {pick : P → Option β} {p : P} (h : pick p = none) :
    afterFind next pick p = (next p).elim (.inr none) fun token => .inl (some token) := by
  unfold afterFind
  rw [h]
  cases next p <;> rfl

/-- A loop that searches the pages returns the first pick. -/
theorem loop_find_of_serves {pick : P → Option β}
    {step : Option τ → Proc σ ε (Option τ ⊕ Option β)}
    (hstep : ∀ tok s p t, fetch tok s = (.ok p, t) → step tok s = (.ok (afterFind next pick p), t))
    (h : Serves fetch next tok s pages t) (hn : pages.length ≤ n) :
    ∃ u, loop step n tok s = (.ok (pages.findSome? pick), u) := by
  induction h generalizing n with
  | @last tok p s t hfetch hnext =>
    obtain ⟨n, rfl⟩ : ∃ n', n = n' + 1 := ⟨n - 1, by simp at hn; omega⟩
    have hround := hstep _ _ _ _ hfetch
    refine ⟨t, ?_⟩
    unfold loop
    rw [bind_of_ok hround]
    cases hpick : pick p with
    | some b => simp only [afterFind, hpick, List.findSome?_cons]; rfl
    | none => simp only [afterFind, hpick, hnext, List.findSome?_cons, List.findSome?_nil]; rfl
  | @more tok token p pages s t u hfetch hnext _ ih =>
    rw [List.length_cons] at hn
    obtain ⟨n, rfl⟩ : ∃ n', n = n' + 1 := ⟨n - 1, by omega⟩
    have hround := hstep _ _ _ _ hfetch
    unfold loop
    rw [bind_of_ok hround]
    cases hpick : pick p with
    | some b =>
      refine ⟨t, ?_⟩
      simp only [afterFind, hpick, List.findSome?_cons]
      rfl
    | none =>
      obtain ⟨v, hrest⟩ := ih (n := n) (by omega)
      refine ⟨v, ?_⟩
      simp only [afterFind, hpick, hnext, List.findSome?_cons]
      exact hrest

/-- How a fold goes on after a page. -/
def afterFold (next : P → Option τ) (absorb : γ → P → γ) (g : γ) (p : P) :
    (Option τ × γ) ⊕ γ :=
  match next p with
  | some token => .inl (some token, absorb g p)
  | none => .inr (absorb g p)

theorem afterFold_eq (absorb : γ → P → γ) (g : γ) (p : P) :
    afterFold next absorb g p
      = (next p).elim (.inr (absorb g p)) fun token => .inl (some token, absorb g p) := by
  unfold afterFold
  cases next p <;> rfl

/-- A loop that folds the pages returns their fold. -/
theorem loop_fold_of_serves {absorb : γ → P → γ} {g : γ}
    {step : Option τ × γ → Proc σ ε ((Option τ × γ) ⊕ γ)}
    (hstep : ∀ tok g s p t, fetch tok s = (.ok p, t) →
      step (tok, g) s = (.ok (afterFold next absorb g p), t))
    (h : Serves fetch next tok s pages t) (hn : pages.length ≤ n) :
    loop step n (tok, g) s = (.ok (pages.foldl absorb g), t) := by
  induction h generalizing n g with
  | last hfetch hnext =>
    obtain ⟨n, rfl⟩ : ∃ n', n = n' + 1 := ⟨n - 1, by simp at hn; omega⟩
    have hround := hstep _ g _ _ _ hfetch
    unfold loop
    rw [bind_of_ok hround]
    simp only [afterFold, hnext]
    rfl
  | more hfetch hnext _ ih =>
    rw [List.length_cons] at hn
    obtain ⟨n, rfl⟩ : ∃ n', n = n' + 1 := ⟨n - 1, by omega⟩
    have hround := hstep _ g _ _ _ hfetch
    unfold loop
    rw [bind_of_ok hround]
    simp only [afterFold, hnext]
    exact ih (by omega)

end Served

/-! ## State relations respected by every run -/

section Respects

variable {R : σ → σ → Prop} [Std.Refl R] [IsTrans σ R]

/-- A paging loop leaves the server's state related as the fetches do. -/
theorem pageLoop_respects {fetch : Option τ → Proc σ ε P} (next : P → Option τ)
    (absorb : κ × γ → P → κ × γ) (fuel : ℕ) (init : γ)
    (hfetch : ∀ token, Respects R (fetch token)) :
    Respects (InvImage R Prod.snd) (pageLoop fetch next absorb fuel init) := by
  refine Respects.loop (fun c => ?_) fuel _
  refine (hfetch c.1).onSnd.bind fun page => ?_
  refine Respects.get.bind fun shared => ?_
  refine (Respects.modifyFst _).bind fun _ => ?_
  cases next page with
  | some token => exact Respects.pure _
  | none => exact Respects.pure _

theorem visitAll_respects {ask : α → Proc σ ε β} (absorb : κ → α × β → κ) (as : List α)
    (hask : ∀ a, Respects R (ask a)) :
    Respects (InvImage R Prod.snd) (visitAll ask absorb as) := by
  refine (Respects.forEach (fun a => ?_) as).bind fun _ => Respects.pure _
  refine (hask a).onSnd.bind fun b => ?_
  exact Respects.modifyFst _

end Respects

end Paging
