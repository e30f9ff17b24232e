import BlockchainOps.Lib.Keyed
import BlockchainOps.Lib.Triple

/-!
# Files on a disk that can fail and lose power

A `Disk` is what the file system shows, together with what a loss of power may still undo:
a file that was written and not synced may hold anything afterwards, or be gone, and a removed
file may be back. Every operation takes the fault of its step. A step fails and leaves no
trace, or is done, perhaps as the last thing before a crash; a write may also store a part of its
bytes and fail, or store something else and report success.

The effect of each operation is one of `put`, `settle` and `drop`; the `_triple` lemmas say which
of them a run has made, whatever its fault and its end. `CrashImage d img` are the contents that
may be found after power was lost in the state `d`.
-/

namespace Storage

open Effect Proc

/-- What stands at a path. -/
inductive Node (β : Type)
  | dir
  | file (content : List β)
deriving DecidableEq, Repr

/-- What a loss of power may undo at a path: a content, or a removal. -/
inductive Unsettled (β : Type)
  | content
  | removal (removed : Node β)
deriving DecidableEq, Repr

/-- The nodes by path, and the paths whose last change a loss of power may undo. -/
structure Disk (π β : Type) where
  nodes : List (π × Node β)
  unsettled : List (π × Unsettled β)
deriving DecidableEq, Repr

/-- The kinds of `std::io::Error` the operations report. -/
inductive IoError
  | notFound
  | alreadyExists
  | isADirectory
  | notADirectory
  | other
deriving DecidableEq, Repr

/-- The kind's description. -/
def IoError.display : IoError → String
  | notFound => "entity not found"
  | alreadyExists => "entity already exists"
  | isADirectory => "is a directory"
  | notADirectory => "not a directory"
  | other => "other error"

/-- How a step goes: as it should, not at all, or as the last before a crash. -/
inductive Fault
  | none
  | fail
  | crash
deriving DecidableEq, Repr

/-- How a write goes: as it should; only the first `n` bytes are stored, before an error or a
crash; or something else is stored than was written. -/
inductive WriteFault (β : Type)
  | none
  | short (n : ℕ)
  | crash (n : ℕ)
  | garbled (stored : List β)
deriving DecidableEq, Repr

variable {π β α : Type} [DecidableEq π]

namespace Disk

/-- A disk as it is found: everything on it has been settled. -/
def mount (nodes : List (π × Node β)) : Disk π β := ⟨nodes, []⟩

/-- What stands at `p`. -/
def node (d : Disk π β) (p : π) : Option (Node β) := d.nodes.lookup p

/-- What a loss of power may undo at `p`. -/
def unsettledAt (d : Disk π β) (p : π) : Option (Unsettled β) := d.unsettled.lookup p

/-- `Path::exists`. -/
def pathExists (d : Disk π β) (p : π) : Bool := (d.node p).isSome

/-- `Path::is_dir`. -/
def isDir (d : Disk π β) (p : π) : Bool := d.node p matches some .dir

/-! ## Changes -/

/-- The file at `p` holds `content`, which is not settled. -/
def put (d : Disk π β) (p : π) (content : List β) : Disk π β :=
  ⟨Keyed.upsert p (.file content) d.nodes, Keyed.upsert p .content d.unsettled⟩

/-- The content at `p` is settled. So is its entry: a new file that is synced is found after a loss
of power. -/
def settle (d : Disk π β) (p : π) : Disk π β :=
  { d with unsettled := Keyed.remove p d.unsettled }

/-- Nothing stands at `p` any more; that is not settled. -/
def drop (d : Disk π β) (p : π) : Disk π β :=
  match d.node p with
  | none => d
  | some removed =>
    ⟨Keyed.remove p d.nodes,
      match d.unsettledAt p with
      | some .content => d.unsettled
      | _ => Keyed.upsert p (.removal removed) d.unsettled⟩

@[simp] theorem node_mount (nodes : List (π × Node β)) (p : π) :
    (mount nodes).node p = nodes.lookup p := rfl

@[simp] theorem unsettledAt_mount (nodes : List (π × Node β)) (p : π) :
    (mount nodes).unsettledAt p = none := rfl

theorem node_put (d : Disk π β) (p q : π) (content : List β) :
    (d.put p content).node q = if q = p then some (.file content) else d.node q :=
  Keyed.lookup_upsert q p _ _

@[simp] theorem node_put_self (d : Disk π β) (p : π) (content : List β) :
    (d.put p content).node p = some (.file content) := by
  rw [node_put, if_pos rfl]

@[simp] theorem node_settle (d : Disk π β) (p q : π) : (d.settle p).node q = d.node q := rfl

theorem node_drop (d : Disk π β) (p q : π) :
    (d.drop p).node q = if q = p then none else d.node q := by
  unfold drop
  rcases h : d.node p with _ | n
  · by_cases hq : q = p
    · rw [if_pos hq, hq, h]
    · rw [if_neg hq]
  · exact Keyed.lookup_remove q p _

@[simp] theorem node_drop_self (d : Disk π β) (p : π) : (d.drop p).node p = none := by
  rw [node_drop, if_pos rfl]

theorem put_put (d : Disk π β) (p : π) (a b : List β) : (d.put p a).put p b = d.put p b := by
  simp only [put, Keyed.upsert_upsert]

theorem unsettledAt_put (d : Disk π β) (p q : π) (content : List β) :
    (d.put p content).unsettledAt q = if q = p then some .content else d.unsettledAt q :=
  Keyed.lookup_upsert q p _ _

theorem unsettledAt_settle (d : Disk π β) (p q : π) :
    (d.settle p).unsettledAt q = if q = p then none else d.unsettledAt q :=
  Keyed.lookup_remove q p _

/-- A removal leaves the other paths as settled as they were. -/
theorem unsettledAt_drop_of_ne (d : Disk π β) {p q : π} (h : q ≠ p) :
    (d.drop p).unsettledAt q = d.unsettledAt q := by
  unfold drop
  rcases d.node p with _ | n
  · rfl
  · rcases d.unsettledAt p with _ | _ | r
    · exact (Keyed.lookup_upsert q p _ _).trans (if_neg h)
    · rfl
    · exact (Keyed.lookup_upsert q p _ _).trans (if_neg h)

/-- Something stands at exactly the paths that have a node. -/
theorem mem_nodes_iff (d : Disk π β) (p : π) : p ∈ d.nodes.map Prod.fst ↔ d.node p ≠ none := by
  rw [Ne, node, List.lookup_eq_none_iff]
  constructor
  · intro hmem hnone
    obtain ⟨entry, hentry, rfl⟩ := List.mem_map.mp hmem
    have := hnone entry hentry
    simp at this
  · intro h
    by_contra hmem
    refine h fun entry hentry => ?_
    rw [bne_iff_ne]
    rintro rfl
    exact hmem (List.mem_map_of_mem hentry)

/-! ## Loss of power -/

/-- What may be found when power is lost in the state `d`. -/
def CrashImage (d : Disk π β) (img : π → Option (Node β)) : Prop :=
  ∀ p, match d.unsettledAt p with
    | none => img p = d.node p
    | some .content => True
    | some (.removal removed) => img p = none ∨ img p = some removed

/-- What is settled is found again. -/
theorem CrashImage.settled {d : Disk π β} {img : π → Option (Node β)} (h : CrashImage d img)
    {p : π} (hp : d.unsettledAt p = none) : img p = d.node p := by
  have hat := h p
  rw [hp] at hat
  exact hat

end Disk

/-! ## Operations -/

/-- A step of the disk: it fails without a trace, or `x` is done. -/
def ioStep (f : Fault) (x : Proc (Disk π β) IoError α) : Proc (Disk π β) IoError α :=
  match f with
  | .none => x
  | .fail => raise .other
  | .crash => do
    let _ ← (attempt x : Proc (Disk π β) IoError (Except IoError α))
    halt .crash

/-- `std::fs::read`. -/
def readFile (f : Fault) (p : π) : Proc (Disk π β) IoError (List β) :=
  ioStep f do
    let d ← get
    match d.node p with
    | some (.file content) => pure content
    | some .dir => raise .isADirectory
    | none => raise .notFound

/-- Open with `create_new`: an empty file, at a path where nothing stands. -/
def createNew (f : Fault) (p : π) : Proc (Disk π β) IoError Unit :=
  ioStep f do
    let d ← get
    if d.pathExists p then raise .alreadyExists
    else modify fun d => d.put p []

/-- `write_all` to a file just created. -/
def writeAll (f : WriteFault β) (p : π) (content : List β) : Proc (Disk π β) IoError Unit :=
  match f with
  | .none => modify fun d => d.put p content
  | .short n => do
    modify fun d => d.put p (content.take n)
    raise .other
  | .crash n => do
    modify fun d => d.put p (content.take n)
    halt .crash
  | .garbled stored => modify fun d => d.put p stored

/-- `sync_all` on an open file. -/
def syncAll (f : Fault) (p : π) : Proc (Disk π β) IoError Unit :=
  ioStep f (modify fun d => d.settle p)

/-- `std::fs::remove_file`. -/
def removeFile (f : Fault) (p : π) : Proc (Disk π β) IoError Unit :=
  ioStep f do
    let d ← get
    match d.node p with
    | some (.file _) => modify fun d => d.drop p
    | some .dir => raise .isADirectory
    | none => raise .notFound

/-! ## What the operations leave -/

omit [DecidableEq π] in
/-- A step respects every reflexive relation that what is done in it respects. -/
theorem ioStep_respects {R : Disk π β → Disk π β → Prop} [Std.Refl R] [IsTrans _ R] {f : Fault}
    {x : Proc (Disk π β) IoError α} (hx : Respects R x) : Respects R (ioStep f x) := by
  cases f with
  | none => exact hx
  | fail => exact Respects.raise _
  | crash => exact hx.attempt.bind fun _ => Respects.halt _

omit [DecidableEq π] in
/-- A step that returns does what the faultless step does. -/
theorem ioStep_below (f : Fault) {x y : Proc (Disk π β) IoError α} (h : Below x y) :
    Below (ioStep f x) (ioStep .none y) := by
  cases f with
  | none => exact h
  | fail => exact Below.raise _ _
  | crash =>
    intro d a d' hrun
    have hends : Triple (fun _ => True) (ioStep .crash x) (fun _ _ => False) (fun _ _ => True) :=
      Triple.bind (Q := fun _ _ => True) (Triple.attempt fun d _ => by
        rcases hx : x d with ⟨o, d'⟩
        cases o <;> trivial) fun _ => Triple.halt fun _ h => h
    exact absurd (hends.of_ok trivial hrun) id

theorem readFile_respects (f : Fault) (p : π) :
    Respects Eq (readFile f p : Proc (Disk π β) IoError (List β)) := by
  refine ioStep_respects (Respects.get.bind fun d => ?_)
  rcases d.node p with _ | _ | content
  · exact Respects.raise _
  · exact Respects.raise _
  · exact Respects.pure _

omit [DecidableEq π] in
/-- A step that is the last before a crash is done. -/
theorem ioStep_crash {x : Proc (Disk π β) IoError α} {a : α} {d d' : Disk π β}
    (h : x d = (.ok a, d')) : ioStep .crash x d = (.stop .crash, d') := by
  have hattempt : (attempt x : Proc (Disk π β) IoError (Except IoError α)) d
      = (.ok (.ok a), d') := by
    unfold attempt
    rw [h]
  exact bind_of_ok hattempt

section Creation

variable {d : Disk π β} {p : π}

theorem createNew_none (hnone : d.node p = none) :
    createNew .none p d = (.ok (), d.put p []) := by
  have habsent : ¬ d.pathExists p = true := by simp [Disk.pathExists, hnone]
  show ((get >>= _ : Proc (Disk π β) IoError Unit) d) = _
  rw [bind_of_ok (get_apply d), if_neg habsent]
  rfl

theorem createNew_crash (hnone : d.node p = none) :
    createNew .crash p d = (.stop .crash, d.put p []) :=
  ioStep_crash (createNew_none hnone)

end Creation

/-! ## What the operations leave of other paths -/

namespace Disk

/-- At `q` the disks show the same, and a loss of power may undo the same. -/
def SameAt (q : π) (d d' : Disk π β) : Prop :=
  d'.node q = d.node q ∧ d'.unsettledAt q = d.unsettledAt q

/-- Where nothing stands at `q`, nothing stood there before, and nothing new may come back. -/
def NotRemoved (q : π) (d d' : Disk π β) : Prop :=
  d'.node q = none →
    d.node q = none ∧ (d'.unsettledAt q = none ∨ d'.unsettledAt q = d.unsettledAt q)

instance (q : π) : Std.Refl (SameAt q : Disk π β → Disk π β → Prop) := ⟨fun _ => ⟨rfl, rfl⟩⟩

instance (q : π) : IsTrans (Disk π β) (SameAt q) :=
  ⟨fun _ _ _ h h' => ⟨h'.1.trans h.1, h'.2.trans h.2⟩⟩

instance (q : π) : Std.Refl (NotRemoved q : Disk π β → Disk π β → Prop) :=
  ⟨fun _ h => ⟨h, Or.inr rfl⟩⟩

instance (q : π) : IsTrans (Disk π β) (NotRemoved q) := ⟨fun d d' d'' h h' hnone => by
  obtain ⟨hbetween, hlast⟩ := h' hnone
  obtain ⟨hfirst, hunsettled⟩ := h hbetween
  refine ⟨hfirst, ?_⟩
  rcases hlast with hlast | hlast
  · exact Or.inl hlast
  · rw [hlast]
    exact hunsettled⟩

variable {d : Disk π β} {p q : π}

theorem sameAt_put (content : List β) (h : q ≠ p) : d.SameAt q (d.put p content) :=
  ⟨by rw [node_put, if_neg h], by rw [unsettledAt_put, if_neg h]⟩

theorem sameAt_settle (h : q ≠ p) : d.SameAt q (d.settle p) :=
  ⟨rfl, by rw [unsettledAt_settle, if_neg h]⟩

theorem sameAt_drop (h : q ≠ p) : d.SameAt q (d.drop p) :=
  ⟨by rw [node_drop, if_neg h], unsettledAt_drop_of_ne d h⟩

theorem notRemoved_put (content : List β) (q : π) : d.NotRemoved q (d.put p content) := by
  intro hnone
  by_cases h : q = p
  · rw [h, node_put_self] at hnone
    exact absurd hnone (by simp)
  · obtain ⟨hnode, hunsettled⟩ := sameAt_put (d := d) content h
    exact ⟨hnode ▸ hnone, Or.inr hunsettled⟩

theorem notRemoved_settle (q : π) : d.NotRemoved q (d.settle p) := by
  intro hnone
  refine ⟨hnone, ?_⟩
  rw [unsettledAt_settle]
  split_ifs
  · exact Or.inl rfl
  · exact Or.inr rfl

/-- The removal of what was settled may be undone. -/
theorem unsettledAt_drop_self {removed : Node β} (hnode : d.node p = some removed)
    (hsettled : d.unsettledAt p = none) : (d.drop p).unsettledAt p = some (.removal removed) := by
  unfold drop
  rw [hnode, hsettled]
  exact (Keyed.lookup_upsert p p _ _).trans (if_pos rfl)

end Disk

section Frames

variable {p q : π}

theorem createNew_sameAt (f : Fault) (h : q ≠ p) :
    Respects (Disk.SameAt q) (createNew f p : Proc (Disk π β) IoError Unit) := by
  refine ioStep_respects (Respects.get.bind fun d => ?_)
  by_cases hexists : d.pathExists p = true
  · rw [if_pos hexists]
    exact Respects.raise _
  · rw [if_neg hexists]
    exact fun d => Disk.sameAt_put [] h

theorem createNew_notRemoved (f : Fault) (q : π) :
    Respects (Disk.NotRemoved q) (createNew f p : Proc (Disk π β) IoError Unit) := by
  refine ioStep_respects (Respects.get.bind fun d => ?_)
  by_cases hexists : d.pathExists p = true
  · rw [if_pos hexists]
    exact Respects.raise _
  · rw [if_neg hexists]
    exact fun d => Disk.notRemoved_put [] q

/-- A write puts something in the file, whatever its fault. -/
theorem writeAll_respects {R : Disk π β → Disk π β → Prop} (f : WriteFault β) (content : List β)
    (h : ∀ d stored, R d (d.put p stored)) : Respects R (writeAll f p content) := by
  intro d
  cases f with
  | none => exact h d content
  | short n => exact h d (content.take n)
  | crash n => exact h d (content.take n)
  | garbled stored => exact h d stored

theorem syncAll_sameAt (f : Fault) (h : q ≠ p) :
    Respects (Disk.SameAt q) (syncAll f p : Proc (Disk π β) IoError Unit) :=
  ioStep_respects fun _ => Disk.sameAt_settle h

theorem syncAll_notRemoved (f : Fault) (q : π) :
    Respects (Disk.NotRemoved q) (syncAll f p : Proc (Disk π β) IoError Unit) :=
  ioStep_respects fun _ => Disk.notRemoved_settle q

theorem removeFile_sameAt (f : Fault) (h : q ≠ p) :
    Respects (Disk.SameAt q) (removeFile f p : Proc (Disk π β) IoError Unit) := by
  refine ioStep_respects (Respects.get.bind fun d => ?_)
  rcases d.node p with _ | _ | content
  · exact Respects.raise _
  · exact Respects.raise _
  · exact fun d => Disk.sameAt_drop h

end Frames

section Triples

variable {P : Disk π β → Prop} {Q : α → Disk π β → Prop} {E : Option IoError → Disk π β → Prop}

omit [DecidableEq π] in
/-- A step is described by what it does when it is done and by the states it starts from. -/
theorem ioStep_triple {f : Fault} {x : Proc (Disk π β) IoError α}
    (hx : Triple P x (fun a d => (f = .none → Q a d) ∧ (f = .crash → E none d))
      (fun e d => (f = .none → E e d) ∧ (f = .crash → E none d)))
    (hfail : f = .fail → ∀ d, P d → E (some .other) d) : Triple P (ioStep f x) Q E := by
  cases f with
  | none => exact hx.post (fun _ _ h => h.1 rfl) (fun _ _ h => h.1 rfl)
  | fail => exact Triple.raise (hfail rfl)
  | crash =>
    refine Triple.bind (Q := fun _ => E none) (Triple.attempt ?_) fun _ => Triple.halt fun _ h => h
    refine hx.post (fun _ _ h => h.2 rfl) fun e d h => ?_
    cases e with
    | none => exact h.2 rfl
    | some e => exact h.2 rfl

variable {d₀ : Disk π β} {p : π}

/-- A read changes nothing; it returns the content of the file exactly when its step goes as it
should and a file is there. -/
theorem readFile_triple (f : Fault) (p : π) (d₀ : Disk π β) :
    Triple (fun d => d = d₀) (readFile f p)
      (fun content d => d = d₀ ∧ f = .none ∧ d₀.node p = some (.file content))
      (fun _ d => d = d₀ ∧ ¬ (f = .none ∧ ∃ content, d₀.node p = some (.file content))) := by
  refine ioStep_triple (Triple.of_eq ?_) fun hf _ h => ⟨h, by simp [hf]⟩
  rw [bind_of_ok (get_apply d₀)]
  rcases h : d₀.node p with _ | _ | content
  · exact ⟨fun _ => ⟨rfl, by simp⟩, fun hf => ⟨rfl, by simp [hf]⟩⟩
  · exact ⟨fun _ => ⟨rfl, by simp⟩, fun hf => ⟨rfl, by simp [hf]⟩⟩
  · exact ⟨fun hf => ⟨rfl, hf, rfl⟩, fun hf => ⟨rfl, by simp [hf]⟩⟩

/-- A file is created where nothing stood, or nothing has changed. -/
theorem createNew_triple (f : Fault) (p : π) (d₀ : Disk π β) :
    Triple (fun d => d = d₀) (createNew f p)
      (fun _ d => d = d₀.put p [] ∧ d₀.node p = none)
      (fun _ d => d = d₀ ∨ (f = .crash ∧ d = d₀.put p [] ∧ d₀.node p = none)) := by
  refine ioStep_triple (Triple.of_eq ?_) fun _ _ h => Or.inl h
  rw [bind_of_ok (get_apply d₀)]
  by_cases h : d₀.pathExists p = true
  · rw [if_pos h]
    exact ⟨fun _ => Or.inl rfl, fun _ => Or.inl rfl⟩
  · have hnone : d₀.node p = none := by simpa [Disk.pathExists] using h
    rw [if_neg h]
    exact ⟨fun _ => ⟨rfl, hnone⟩, fun hf => Or.inr ⟨hf, rfl, hnone⟩⟩

/-- A write has stored everything, or something else, or a part. -/
theorem writeAll_triple (f : WriteFault β) (p : π) (content : List β) (d₀ : Disk π β) :
    Triple (fun d => d = d₀) (writeAll f p content)
      (fun _ d => ∃ stored, d = d₀.put p stored ∧ (stored = content ∨ f = .garbled stored))
      (fun _ d => ∃ n, d = d₀.put p (content.take n) ∧ (f = .short n ∨ f = .crash n)) := by
  refine Triple.of_eq ?_
  cases f with
  | none => exact ⟨content, rfl, Or.inl rfl⟩
  | short n => exact ⟨n, rfl, Or.inl rfl⟩
  | crash n => exact ⟨n, rfl, Or.inr rfl⟩
  | garbled stored => exact ⟨stored, rfl, Or.inr rfl⟩

/-- A sync has settled the file, or nothing has changed. -/
theorem syncAll_triple (f : Fault) (p : π) (d₀ : Disk π β) :
    Triple (fun d => d = d₀) (syncAll f p) (fun _ d => d = d₀.settle p)
      (fun _ d => d = d₀ ∨ d = d₀.settle p) :=
  ioStep_triple (Triple.of_eq ⟨fun _ => rfl, fun _ => Or.inr rfl⟩) fun _ _ h => Or.inl h

/-- A file has been removed, or nothing has changed. -/
theorem removeFile_triple (f : Fault) (p : π) (d₀ : Disk π β) :
    Triple (fun d => d = d₀) (removeFile f p) (fun _ d => d = d₀.drop p)
      (fun _ d => d = d₀ ∨ d = d₀.drop p) := by
  refine ioStep_triple (Triple.of_eq ?_) fun _ _ h => Or.inl h
  rw [bind_of_ok (get_apply d₀)]
  rcases h : d₀.node p with _ | _ | content
  · exact ⟨fun _ => Or.inl rfl, fun _ => Or.inl rfl⟩
  · exact ⟨fun _ => Or.inl rfl, fun _ => Or.inl rfl⟩
  · exact ⟨fun _ => rfl, fun _ => Or.inr rfl⟩

end Triples

end Storage
