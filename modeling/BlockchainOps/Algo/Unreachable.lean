import BlockchainOps.Algo.Attempts
import BlockchainOps.Lib.Text

/-!
# Which errors are taken for an unreachable host

`is_host_unreachable` searches the rendered text of an error for seven marks. The text that a call
renders around the message of a node holds none of them, so an error of a call is taken for an
unreachable host exactly when that message is (`giveUp_isHostUnreachable`). The refusals of the
limits never are, and a time-out always is.
-/

namespace BlockchainOps.Algo

open Effect

variable {kind : CallKind} {text a b : List Char} {marks : List String} {c : Char}

/-! ## Marks -/

/-- One of the marks, which are in lower case, occurs in the text, in any case. -/
def Mentions (marks : List String) (text : List Char) : Prop :=
  Text.Occurs (marks.map String.toList) (text.map Char.toLower)

/-- What `is_host_unreachable` searches for. -/
def unreachableMarks : List String :=
  ["tcp connect error", "connection refused", "connection reset", "timeout", "dns error",
    "host unreachable", "error sending request"]

theorem containsText_toLowercase (s pat : String) :
    containsText (toLowercase s) pat = true ↔ Mentions [pat] s.toList := by
  unfold containsText toLowercase Mentions Text.Occurs
  rw [String.toList_ofList, decide_eq_true_eq]
  simp

theorem isHostUnreachable_iff (e : Error) :
    e.isHostUnreachable = true ↔ Mentions unreachableMarks e.display.toList := by
  have hor : ∀ (pat : String) (pats : List String), Mentions (pat :: pats) e.display.toList ↔
      containsText (toLowercase e.display) pat = true ∨ Mentions pats e.display.toList := by
    intro pat pats
    rw [containsText_toLowercase]
    unfold Mentions Text.Occurs
    simp
  have hnil : ¬ Mentions [] e.display.toList := by
    intro h
    obtain ⟨pat, hpat, -⟩ := h
    exact absurd hpat List.not_mem_nil
  unfold Error.isHostUnreachable unreachableMarks
  simp only [hor, Bool.or_eq_true, hnil, or_false, or_assoc]

theorem isHostUnreachable_eq_false_iff (e : Error) :
    e.isHostUnreachable = false ↔ ¬ Mentions unreachableMarks e.display.toList := by
  rw [← isHostUnreachable_iff, Bool.not_eq_true]

/-- The marks hold none of the separators of the rendered texts, and start with a letter. -/
theorem unreachableMarks_separators :
    ∀ sep ∈ [':', ',', ';', ')'], ∀ mark ∈ unreachableMarks.map String.toList,
      mark ≠ [] ∧ sep ∉ mark := by decide

theorem mentions_append_iff (hc : c ∈ [':', ',', ';', ')']) :
    Mentions unreachableMarks (a ++ c :: b)
      ↔ Mentions unreachableMarks a ∨ Mentions unreachableMarks b := by
  have hlower : c.toLower = c := by
    revert c
    decide
  unfold Mentions
  rw [List.map_append, List.map_cons, hlower]
  apply Text.occurs_append_cons_iff
  exact unreachableMarks_separators c hc

theorem mentions_space_iff :
    Mentions unreachableMarks (' ' :: text) ↔ Mentions unreachableMarks text := by
  unfold Mentions
  rw [List.map_cons]
  apply Text.occurs_cons_iff
  decide

theorem toLower_of_isDigit (h : c.isDigit = true) : c.toLower = c := by
  have hbounds := Char.isDigit_iff_toNat.mp h
  have hnine : '9'.toNat < 'A'.val.toNat := by decide
  have hval : c.val.toNat = c.toNat := rfl
  apply dif_neg
  rw [ge_iff_le, UInt32.le_iff_toNat_le]
  omega

/-- A text of digits and of letters that no mark is written in. -/
theorem not_mentions_of_letters (letters : List Char)
    (hmarks : ∀ mark ∈ marks.map String.toList, ∃ c ∈ mark,
      ¬ (c.isDigit = true ∨ c ∈ letters.map Char.toLower))
    (htext : ∀ c ∈ text, c.isDigit = true ∨ c ∈ letters) : ¬ Mentions marks text := by
  apply Text.not_occurs_of_alphabet hmarks
  intro c hc
  obtain ⟨d, hd, rfl⟩ := List.mem_map.mp hc
  rcases htext d hd with hdigit | hletter
  · rw [toLower_of_isDigit hdigit]
    exact Or.inl hdigit
  · exact Or.inr (List.mem_map_of_mem hletter)

/-- A text whose lower-case form is known. -/
theorem not_mentions_of_lower (lower : String) (hlower : text.map Char.toLower = lower.toList)
    (hnot : ∀ mark ∈ unreachableMarks.map String.toList, ¬ mark <:+: lower.toList) :
    ¬ Mentions unreachableMarks text := by
  unfold Mentions
  rw [hlower, Text.not_occurs_iff]
  exact hnot

/-! ## Rendered errors -/

/-- The start of a rendered error, which names its kind. -/
def AlgoError.label (e : AlgoError) : List Char :=
  "AlgoError (".toList ++ e.kind.debug.toList ++
    match e.status, e.retryAfter with
    | some status, _ => ',' :: (" http ".toList ++ (Nat.repr status).toList ++ ")".toList)
    | none, some retryAfter =>
      ',' :: (" retry after ".toList ++ (Nat.repr retryAfter.asMillis).toList ++ " ms)".toList)
    | none, none => [')']

theorem AlgoError.display_toList (e : AlgoError) :
    e.display.toList =
      e.label ++ ':' :: ((" operation '".toList ++ e.operation.toList ++ "' failed".toList) ++
        ':' :: ' ' :: e.message.toList) := by
  unfold display label
  rcases e.status with _ | status <;> rcases e.retryAfter with _ | retryAfter <;>
    simp [String.toList_append, toString]

/-- A number between two texts. -/
theorem not_mentions_number (n : ℕ) (before after : String)
    (hmarks : ∀ mark ∈ marks.map String.toList, ∃ c ∈ mark,
      ¬ (c.isDigit = true ∨ c ∈ (before.toList ++ after.toList).map Char.toLower)) :
    ¬ Mentions marks (before.toList ++ (Nat.repr n).toList ++ after.toList) := by
  apply not_mentions_of_letters (before.toList ++ after.toList) hmarks
  intro c hc
  simp only [List.mem_append] at hc ⊢
  rcases hc with (hbefore | hdigit) | hafter
  · exact Or.inr (Or.inl hbefore)
  · exact Or.inl (Text.isDigit_of_mem_repr hdigit)
  · exact Or.inr (Or.inr hafter)

theorem AlgoErrorKind.not_mentions (kind : AlgoErrorKind) :
    ¬ Mentions unreachableMarks ("AlgoError (".toList ++ kind.debug.toList) := by
  cases kind with
  | hostUnreachable => exact not_mentions_of_lower "algoerror (hostunreachable" (by decide) (by decide)
  | transientFailure => exact not_mentions_of_lower "algoerror (transientfailure" (by decide) (by decide)
  | httpError => exact not_mentions_of_lower "algoerror (httperror" (by decide) (by decide)
  | rateLimited => exact not_mentions_of_lower "algoerror (ratelimited" (by decide) (by decide)
  | dailyBudgetExceeded => exact not_mentions_of_lower "algoerror (dailybudgetexceeded" (by decide) (by decide)

theorem AlgoError.not_mentions_label (e : AlgoError) : ¬ Mentions unreachableMarks e.label := by
  have hkind := e.kind.not_mentions
  have hstatus : ∀ n : ℕ, ¬ Mentions unreachableMarks
      (" http ".toList ++ (Nat.repr n).toList ++ ")".toList) :=
    fun n => not_mentions_number n " http " ")" (by decide)
  have hretry : ∀ n : ℕ, ¬ Mentions unreachableMarks
      (" retry after ".toList ++ (Nat.repr n).toList ++ " ms)".toList) :=
    fun n => not_mentions_number n " retry after " " ms)" (by decide)
  have hend : ¬ Mentions unreachableMarks [] := not_mentions_of_lower "" rfl (by decide)
  unfold label
  rcases e.status with _ | status <;> rcases e.retryAfter with _ | retryAfter <;>
    rw [mentions_append_iff (by decide), not_or]
  · exact ⟨hkind, hend⟩
  · exact ⟨hkind, hretry _⟩
  · exact ⟨hkind, hstatus _⟩
  · exact ⟨hkind, hstatus _⟩

theorem CallKind.not_mentions (kind : CallKind) :
    ¬ Mentions unreachableMarks
      (" operation '".toList ++ kind.operation.toList ++ "' failed".toList) := by
  cases kind with
  | algod => exact not_mentions_of_lower " operation 'algod call' failed" (by decide) (by decide)
  | indexerRead =>
    exact not_mentions_of_lower " operation 'indexer search' failed" (by decide) (by decide)

/-- Rendering a typed error of a call adds no mark to its message. -/
theorem isHostUnreachable_typed {e : AlgoError} (he : e.operation = kind.operation) :
    (Error.typed e).isHostUnreachable = (Error.text e.message).isHostUnreachable := by
  rw [Bool.eq_iff_iff, isHostUnreachable_iff, isHostUnreachable_iff]
  show Mentions unreachableMarks e.display.toList ↔ Mentions unreachableMarks e.message.toList
  rw [e.display_toList, mentions_append_iff (by decide), mentions_append_iff (by decide),
    mentions_space_iff, he]
  have hlabel := e.not_mentions_label
  have hop := kind.not_mentions
  simp only [hlabel, hop, false_or]

/-- A call that is given up looks unreachable if the message of the node does. -/
theorem giveUp_isHostUnreachable (attempt : ℕ) (e : NodeError) :
    (giveUp kind attempt e).isHostUnreachable = (Error.text e.text).isHostUnreachable := by
  unfold giveUp
  split_ifs
  · exact isHostUnreachable_typed (rfl : _ = kind.operation)
  · cases e.httpStatus with
    | none => rfl
    | some status => exact isHostUnreachable_typed (rfl : _ = kind.operation)

/-! ## Refusals -/

theorem isDigit_of_mem_pad2 {n : ℕ} (h : c ∈ (pad2 n).toList) : c.isDigit = true := by
  unfold pad2 at h
  split_ifs at h
  · simp only [toString, String.toList_append, List.mem_append] at h
    rcases h with hzero | hdigit
    · have hc : c = '0' := by simpa using hzero
      rw [hc]
      rfl
    · exact Text.isDigit_of_mem_repr hdigit
  · exact Text.isDigit_of_mem_repr h

/-- What the message of a spent budget is made of, besides digits. There is no `o` in it. -/
def budgetLetters : List Char :=
  "daily request budget exhausted; resets in ".toList ++ " minutes at ".toList ++ "Z".toList

theorem mem_budgetMessage {wait : Duration} {offset : ℕ}
    (h : c ∈ (AlgoError.dailyBudgetExceeded wait offset).message.toList) :
    c.isDigit = true ∨ c ∈ budgetLetters := by
  unfold budgetLetters
  simp only [AlgoError.dailyBudgetExceeded, toString, String.toList_append, List.mem_append] at h ⊢
  rcases h with ((((h | h) | h) | h) | h) | h
  · exact Or.inr (Or.inl (Or.inl h))
  · exact Or.inl (Text.isDigit_of_mem_repr h)
  · exact Or.inr (Or.inl (Or.inr h))
  · exact Or.inl (isDigit_of_mem_pad2 h)
  · exact Or.inl (isDigit_of_mem_pad2 h)
  · exact Or.inr (Or.inr h)

theorem rateLimited_message (operation : String) (wait : Duration) :
    (AlgoError.rateLimited operation wait).message.toList =
      "outbound rate limit reached".toList ++ ';' ::
        (" retry after ".toList ++ (Nat.repr wait.asMillis).toList ++ " ms".toList) := by
  unfold AlgoError.rateLimited
  simp [String.toList_append, toString]

/-- A refusal of the limits is not taken for an unreachable host. -/
theorem Refusal.not_unreachable {a : AlgoError} (h : Refusal kind.operation a) :
    (Error.typed a).isHostUnreachable = false := by
  cases h with
  | budget wait offset =>
    rw [isHostUnreachable_typed (rfl : _ = CallKind.algod.operation),
      isHostUnreachable_eq_false_iff]
    apply not_mentions_of_letters budgetLetters (by decide)
    intro c hc
    exact mem_budgetMessage hc
  | bucket wait =>
    have hstart : ¬ Mentions unreachableMarks "outbound rate limit reached".toList :=
      not_mentions_of_lower "outbound rate limit reached" (by decide) (by decide)
    have hwait : ¬ Mentions unreachableMarks
        (" retry after ".toList ++ (Nat.repr wait.asMillis).toList ++ " ms".toList) :=
      not_mentions_number _ _ _ (by decide)
    rw [isHostUnreachable_typed (rfl : _ = kind.operation), isHostUnreachable_eq_false_iff]
    show ¬ Mentions unreachableMarks (AlgoError.rateLimited kind.operation wait).message.toList
    rw [rateLimited_message, mentions_append_iff (by decide), not_or]
    exact ⟨hstart, hwait⟩

/-- Nor is it taken for a quota that the server enforces. -/
theorem Refusal.not_quota {a : AlgoError} (h : Refusal kind.operation a) : a.isQuota = false := by
  have hmessage : ¬ Mentions ["quota"] a.message.toList := by
    cases h with
    | budget wait offset =>
      apply not_mentions_of_letters budgetLetters (by decide)
      intro c hc
      exact mem_budgetMessage hc
    | bucket wait =>
      rw [rateLimited_message]
      apply not_mentions_of_letters
        ("outbound rate limit reached".toList ++ ';' :: " retry after ".toList ++ " ms".toList)
        (by decide)
      intro c hc
      simp only [List.mem_append, List.mem_cons] at hc ⊢
      rcases hc with hc | hc | (hc | hc) | hc
      · exact Or.inr (Or.inl (Or.inl hc))
      · exact Or.inr (Or.inl (Or.inr (Or.inl hc)))
      · exact Or.inr (Or.inl (Or.inr (Or.inr hc)))
      · exact Or.inl (Text.isDigit_of_mem_repr hc)
      · exact Or.inr (Or.inr hc)
  have hforbidden : a.isForbidden = false := by
    cases h <;> rfl
  unfold AlgoError.isQuota
  rw [hforbidden, Bool.false_or, Bool.eq_false_iff]
  intro hcontains
  exact hmessage ((containsText_toLowercase _ _).mp hcontains)

/-! ## Attempts -/

/-- The error of the attempt is taken for an unreachable host: a time-out, or a failure with a
mark in its text. -/
def Event.unreachable : Event → Bool
  | .refused _ => false
  | .unsent e => (Error.text e).isHostUnreachable
  | .exchange _ (.failed e) => (Error.text e.text).isHostUnreachable
  | .exchange _ (.timedOut _) => true
  | .exchange _ .ok | .exchange _ .unsettled | .exchange _ .panicked => false

theorem timeout_isHostUnreachable (operation : String) (limit : Duration) :
    (Error.text s!"runtime error: {operation} exceeded timeout of {limit.debug}").isHostUnreachable
      = true := by
  rw [isHostUnreachable_iff]
  refine ⟨"timeout".toList, by decide, s!"runtime error: {operation} exceeded ".toList.map
    Char.toLower, s!" of {limit.debug}".toList.map Char.toLower, ?_⟩
  have hlower : "timeout".toList.map Char.toLower = "timeout".toList := by decide
  show _ = List.map Char.toLower
    s!"runtime error: {operation} exceeded timeout of {limit.debug}".toList
  rw [← hlower, ← List.map_append, ← List.map_append]
  simp [String.toList_append, toString]

theorem unsent_isHostUnreachable (e : String) :
    (Error.text s!"runtime error: failed to build tokio runtime: {e}").isHostUnreachable
      = (Error.text e).isHostUnreachable := by
  have hsplit : s!"runtime error: failed to build tokio runtime: {e}".toList
      = "runtime error".toList ++ ':' ::
        (" failed to build tokio runtime".toList ++ ':' :: ' ' :: e.toList) := by
    simp [String.toList_append, toString]
  have hstart : ¬ Mentions unreachableMarks "runtime error".toList :=
    not_mentions_of_lower "runtime error" (by decide) (by decide)
  have hmiddle : ¬ Mentions unreachableMarks " failed to build tokio runtime".toList :=
    not_mentions_of_lower " failed to build tokio runtime" (by decide) (by decide)
  rw [Bool.eq_iff_iff, isHostUnreachable_iff, isHostUnreachable_iff]
  show Mentions _ s!"runtime error: failed to build tokio runtime: {e}".toList
    ↔ Mentions _ e.toList
  rw [hsplit, mentions_append_iff (by decide), mentions_append_iff (by decide),
    mentions_space_iff]
  simp only [hstart, hmiddle, false_or]

/-- The error that a call returns is taken for an unreachable host as its last attempt says. -/
theorem CallKind.Reports.isHostUnreachable {c : Session} {last : Event} {e : Error}
    (h : kind.Reports c last e) : e.isHostUnreachable = last.unreachable := by
  have hreport := h.report
  rcases last with a | text | ⟨request, _ | error | limit | _ | _⟩
  · rw [← Option.some.inj hreport]
    exact (h.refusal a rfl).not_unreachable
  · rw [← Option.some.inj hreport]
    exact unsent_isHostUnreachable text
  · exact absurd hreport (by simp [CallKind.report])
  · rw [← Option.some.inj hreport]
    exact giveUp_isHostUnreachable maxRetries error
  · rw [← Option.some.inj hreport]
    exact timeout_isHostUnreachable kind.operation limit
  · exact absurd hreport (by simp [CallKind.report])
  · have hpanic : ¬ Mentions unreachableMarks
        "runtime error: rt_block_on thread panicked".toList :=
      not_mentions_of_lower "runtime error: rt_block_on thread panicked" (by decide) (by decide)
    unfold CallKind.report at hreport
    dsimp only at hreport
    split_ifs at hreport
    rw [← Option.some.inj hreport]
    exact (isHostUnreachable_eq_false_iff _).mpr hpanic

end BlockchainOps.Algo
