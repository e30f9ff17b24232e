import BlockchainOps.Lib.Disk

/-!
# What a failed run leaves

`FailsIn E x s` says that a run of `x` from `s` leaves a state of `E` if it ends with an error.
Unlike a triple, it is exact: for each way to build a procedure, and for each operation of a disk,
an equivalence says what of the parts it amounts to. With the lemmas on runs that return, the
condition on the faults under which a failed operation leaves nothing behind is found by rewriting.
-/

namespace Effect.Proc

variable {σ ε ε' α β : Type} {E : σ → Prop} {s s' : σ}

/-- A run of `x` from `s` that ends with an error leaves a state of `E`. -/
def FailsIn (E : σ → Prop) (x : Proc σ ε α) (s : σ) : Prop := ∀ e s', x s = (.err e, s') → E s'

theorem failsIn_pure (a : α) : FailsIn E (pure a : Proc σ ε α) s := by
  intro e s' h
  simp at h

theorem failsIn_halt (w : Stop) : FailsIn E (halt w : Proc σ ε α) s := by
  intro e s' h
  simp at h

theorem failsIn_modify (f : σ → σ) : FailsIn E (modify f : Proc σ ε Unit) s := by
  intro e s' h
  simp at h

theorem failsIn_raise_iff {e : ε} : FailsIn E (raise e : Proc σ ε α) s ↔ E s := by
  simp [FailsIn]

/-- An error handed over as a value is none. -/
theorem failsIn_attempt (x : Proc σ ε α) :
    FailsIn E (attempt x : Proc σ ε' (Except ε α)) s := by
  intro e s' h
  unfold attempt at h
  rcases hx : x s with ⟨_ | _ | _, s''⟩ <;> simp [hx] at h

theorem failsIn_mapErr_iff {f : ε → ε'} {x : Proc σ ε α} :
    FailsIn E (mapErr f x) s ↔ FailsIn E x s := by
  unfold FailsIn
  rw [mapErr_apply]
  rcases x s with ⟨_ | _ | _, s'⟩ <;> simp

/-- A program fails where one of its steps does. -/
theorem failsIn_bind_iff {x : Proc σ ε α} {f : α → Proc σ ε β} :
    FailsIn E (x >>= f) s ↔
      FailsIn E x s ∧ ∀ a s', x s = (.ok a, s') → FailsIn E (f a) s' := by
  unfold FailsIn
  rw [bind_apply]
  rcases x s with ⟨a | e | w, s'⟩ <;> simp

theorem failsIn_bind_pure_iff {x : Proc σ ε α} {f : α → β} :
    FailsIn E (x >>= fun a => pure (f a)) s ↔ FailsIn E x s := by
  rw [failsIn_bind_iff]
  exact and_iff_left fun a s' _ => failsIn_pure (f a)

theorem failsIn_ofExcept_iff {x : Except ε α} :
    FailsIn E (ofExcept x : Proc σ ε α) s ↔ ∀ e, x = .error e → E s := by
  cases x with
  | ok a => simp [ofExcept, FailsIn]
  | error e => simp [ofExcept, FailsIn]

/-- A program that raises an error whatever `x` does leaves what `x` leaves, if it returns. -/
theorem failsIn_attempt_raise_iff {x : Proc σ ε α} {e : ε'} :
    FailsIn E (attempt x >>= fun _ => raise e : Proc σ ε' β) s ↔
      (∀ a s', x s = (.ok a, s') → E s') ∧ FailsIn E x s := by
  unfold FailsIn
  rw [bind_apply]
  unfold attempt
  rcases x s with ⟨_ | _ | _, s'⟩ <;> simp

end Effect.Proc

namespace Storage

open Effect Proc

variable {π β α : Type} [DecidableEq π] {E : Disk π β → Prop} {d d' : Disk π β} {p : π}

omit [DecidableEq π] in
theorem ioStep_ok_iff {f : Fault} {x : Proc (Disk π β) IoError α} {a : α} :
    ioStep f x d = (.ok a, d') ↔ f = .none ∧ x d = (.ok a, d') := by
  cases f with
  | none => simp [ioStep]
  | fail => simp [ioStep]
  | crash =>
    have hcrash : ¬ ioStep .crash x d = (.ok a, d') := by
      show ¬ (attempt x >>= fun _ => halt .crash) d = (.ok a, d')
      rw [bind_ok_iff]
      simp
    simp [hcrash]

omit [DecidableEq π] in
/-- A step fails as it would have without a fault, or without having begun. -/
theorem failsIn_ioStep_iff {f : Fault} {x : Proc (Disk π β) IoError α} :
    FailsIn E (ioStep f x) d ↔ (f = .none → FailsIn E x d) ∧ (f = .fail → E d) := by
  cases f with
  | none => simp [ioStep]
  | fail => simp [ioStep, failsIn_raise_iff]
  | crash =>
    have hcrash : FailsIn E (ioStep .crash x) d := by
      show FailsIn E (attempt x >>= fun _ => halt .crash) d
      rw [failsIn_bind_iff]
      exact ⟨failsIn_attempt x, fun _ _ _ => failsIn_halt .crash⟩
    simp [hcrash]

theorem createNew_ok_iff {f : Fault} {u : Unit} :
    createNew f p d = (.ok u, d') ↔ f = .none ∧ d.node p = none ∧ d' = d.put p [] := by
  unfold createNew
  rw [ioStep_ok_iff, bind_of_ok (get_apply d)]
  rcases h : d.node p with _ | n
  · simp [Disk.pathExists, h, eq_comm]
  · simp [Disk.pathExists, h]

/-- A creation that fails has not begun. -/
theorem failsIn_createNew {f : Fault} (h : E d) : FailsIn E (createNew f p) d := by
  unfold createNew
  rw [failsIn_ioStep_iff, failsIn_bind_iff]
  refine ⟨fun _ => ⟨fun _ _ he => by simp at he, fun seen d' hseen => ?_⟩, fun _ => h⟩
  obtain ⟨rfl, rfl⟩ : d = seen ∧ d = d' := by simpa using hseen
  split_ifs
  · exact failsIn_raise_iff.mpr h
  · exact failsIn_modify _

/-- What a write that reports success has stored of `content`. -/
def WriteFault.reported (content : List β) : WriteFault β → Option (List β)
  | none => some content
  | garbled stored => some stored
  | short _ | crash _ => Option.none

theorem writeAll_ok_iff {f : WriteFault β} {content : List β} {u : Unit} :
    writeAll f p content d = (.ok u, d') ↔
      ∃ stored, f.reported content = some stored ∧ d' = d.put p stored := by
  cases f with
  | none => simp [writeAll, WriteFault.reported, eq_comm]
  | short n => simp [writeAll, WriteFault.reported, bind_apply]
  | crash n => simp [writeAll, WriteFault.reported, bind_apply]
  | garbled stored => simp [writeAll, WriteFault.reported, eq_comm]

theorem failsIn_writeAll_iff {f : WriteFault β} {content : List β} :
    FailsIn E (writeAll f p content) d ↔ ∀ n, f = .short n → E (d.put p (content.take n)) := by
  cases f with
  | none => simp [writeAll, failsIn_modify]
  | short n => simp [writeAll, failsIn_bind_iff, failsIn_modify, failsIn_raise_iff]
  | crash n => simp [writeAll, failsIn_bind_iff, failsIn_modify, failsIn_halt]
  | garbled stored => simp [writeAll, failsIn_modify]

theorem syncAll_ok_iff {f : Fault} {u : Unit} :
    syncAll f p d = (.ok u, d') ↔ f = .none ∧ d' = d.settle p := by
  unfold syncAll
  rw [ioStep_ok_iff]
  simp [eq_comm]

theorem failsIn_syncAll_iff {f : Fault} : FailsIn E (syncAll f p) d ↔ (f = .fail → E d) := by
  unfold syncAll
  rw [failsIn_ioStep_iff]
  simp [failsIn_modify]

theorem readFile_ok_iff {f : Fault} {content : List β} :
    readFile f p d = (.ok content, d') ↔
      f = .none ∧ d.node p = some (.file content) ∧ d' = d := by
  unfold readFile
  rw [ioStep_ok_iff, bind_of_ok (get_apply d)]
  rcases d.node p with _ | _ | found
  · simp
  · simp
  · simp [eq_comm]

/-- A read changes nothing. -/
theorem failsIn_readFile {f : Fault} (h : E d) : FailsIn E (readFile f p) d := by
  intro e d' hrun
  have hlast := (readFile_triple f p d).of_err rfl hrun
  rw [hlast.1]
  exact h

theorem failsIn_readFile_iff {f : Fault} {content : List β}
    (h : d.node p = some (.file content)) : FailsIn E (readFile f p) d ↔ (f = .fail → E d) := by
  unfold readFile
  rw [failsIn_ioStep_iff]
  apply and_iff_right
  intro _ e d' hrun
  simp [bind_apply, h] at hrun

theorem removeFile_ok_iff {f : Fault} {content : List β} {u : Unit}
    (h : d.node p = some (.file content)) :
    removeFile f p d = (.ok u, d') ↔ f = .none ∧ d' = d.drop p := by
  unfold removeFile
  rw [ioStep_ok_iff, bind_of_ok (get_apply d), h]
  simp [eq_comm]

/-- The removal of a file that is there fails only by a fault of its step. -/
theorem failsIn_removeFile_iff {f : Fault} {content : List β}
    (h : d.node p = some (.file content)) : FailsIn E (removeFile f p) d ↔ (f = .fail → E d) := by
  unfold removeFile
  rw [failsIn_ioStep_iff]
  apply and_iff_right
  intro _ e d' hrun
  simp [bind_apply, h] at hrun

end Storage
