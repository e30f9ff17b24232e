import BlockchainOps.AccountVault.KeyFile

/-!
# Names of files as text

Names are bytes; where they are shown, what is not UTF-8 is replaced. A name given as one text may
have directories in it, which `join` splits.
-/

namespace BlockchainOps.AccountVault

/-- The character U+FFFD. -/
def replacement : String := String.singleton '\uFFFD'

/-- The text of a complete UTF-8 sequence. -/
def decodeSequence (seq : Bytes) : String := (String.fromUTF8? ⟨seq.toArray⟩).getD replacement

/-- The text of `bytes` after the started sequence `seq`, which the machine is at `s` in. -/
def lossyFrom : Utf8State → Bytes → Bytes → String
  | s, _, [] => if s.pending = 0 then "" else replacement
  | s, seq, b :: bytes =>
    match s.step b with
    | some t =>
      if t.pending = 0 then decodeSequence (seq ++ [b]) ++ lossyFrom .start [] bytes
      else lossyFrom t (seq ++ [b]) bytes
    | none =>
      if s.pending = 0 then replacement ++ lossyFrom .start [] bytes
      else
        -- the started sequence is replaced, and the byte is read again
        match Utf8State.start.step b with
        | some t =>
          if t.pending = 0 then replacement ++ decodeSequence [b] ++ lossyFrom .start [] bytes
          else replacement ++ lossyFrom t [b] bytes
        | none => replacement ++ replacement ++ lossyFrom .start [] bytes

/-- `to_string_lossy`. -/
def toStringLossy (name : Bytes) : String := lossyFrom .start [] name

/-- `Path::file_stem` of a file name: what precedes its extension. -/
def fileStem (name : Bytes) : Bytes :=
  match extension name with
  | some e => name.take (name.length - (e.length + 1))
  | none => name

/-- The name a backup page carries: the path beneath `root` without its extension. -/
def KeyFile.nameUnder (file : KeyFile) (root : Path) : String :=
  let relative := if root <+: file.plain then file.plain.drop root.length else file.plain
  let stemmed := match relative.getLast? with
    | some name => relative.dropLast ++ [fileStem name]
    | none => relative
  String.intercalate "/" (stemmed.map toStringLossy)

/-- `/`, which separates the components of a path and is the root on its own. -/
def separator : UInt8 := 0x2F

/-- `Path::components` of a relative path given as one name. -/
def components (name : Bytes) : Path :=
  (name.splitOn separator).filter fun part => decide (part ≠ []) && decide (part ≠ [0x2E])

/-- `Path::join`: a name that starts at the root replaces the directory. -/
def join (dir : Path) (name : Bytes) : Path :=
  if name.head? = some separator then [separator] :: components name else dir ++ components name

/-- A name without a separator but for those in `name`, split at the last of them. -/
theorem splitOn_append (name : Bytes) :
    ∃ parents last, ∀ tail, separator ∉ tail →
      (name ++ tail).splitOn separator = parents ++ [last ++ tail] := by
  induction name with
  | nil => exact ⟨[], [], fun tail htail => by simpa using List.splitOn_eq_singleton htail⟩
  | cons b name ih =>
    obtain ⟨parents, last, hsplit⟩ := ih
    by_cases hb : b = separator
    · refine ⟨[] :: parents, last, fun tail htail => ?_⟩
      rw [List.cons_append, List.splitOn_cons_eq_if_modifyHead, hsplit tail htail, hb]
      simp
    · rcases parents with _ | ⟨first, parents⟩
      · refine ⟨[], b :: last, fun tail htail => ?_⟩
        rw [List.cons_append, List.splitOn_cons_eq_if_modifyHead, hsplit tail htail]
        simp [hb]
      · refine ⟨(b :: first) :: parents, last, fun tail htail => ?_⟩
        rw [List.cons_append, List.splitOn_cons_eq_if_modifyHead, hsplit tail htail]
        simp [hb]

/-- The last component of a name ends as the name does. -/
theorem join_append (dir : Path) (name : Bytes) :
    ∃ parent last, ∀ tail, separator ∉ tail → 2 ≤ tail.length →
      join dir (name ++ tail) = parent ++ [last ++ tail] := by
  obtain ⟨parents, last, hsplit⟩ := splitOn_append name
  let kept := parents.filter fun part => decide (part ≠ []) && decide (part ≠ [0x2E])
  have hcomponents : ∀ tail, separator ∉ tail → 2 ≤ tail.length →
      components (name ++ tail) = kept ++ [last ++ tail] := by
    intro tail htail hlen
    have hne : last ++ tail ≠ [] := fun h => by
      rw [List.append_eq_nil_iff] at h
      simp [h.2] at hlen
    have hdot : last ++ tail ≠ [0x2E] := fun h => by
      have hlength := congrArg List.length h
      rw [List.length_append, List.length_singleton] at hlength
      omega
    rw [components, hsplit tail htail, List.filter_append, List.filter_singleton]
    simp [hne, hdot, kept]
  have hhead : ∀ tail, separator ∉ tail → 2 ≤ tail.length →
      ((name ++ tail).head? = some separator ↔ name.head? = some separator) := by
    intro tail htail hlen
    rcases name with _ | ⟨b, name⟩
    · rcases tail with _ | ⟨t, tail⟩
      · simp at hlen
      · have hne : t ≠ separator := fun h => htail (by simp [h])
        simp [hne]
    · simp
  by_cases hroot : name.head? = some separator
  · refine ⟨[separator] :: kept, last, fun tail htail hlen => ?_⟩
    rw [join, if_pos ((hhead tail htail hlen).mpr hroot), hcomponents tail htail hlen]
    rfl
  · refine ⟨dir ++ kept, last, fun tail htail hlen => ?_⟩
    rw [join, if_neg fun h => hroot ((hhead tail htail hlen).mp h), hcomponents tail htail hlen,
      List.append_assoc]

end BlockchainOps.AccountVault
