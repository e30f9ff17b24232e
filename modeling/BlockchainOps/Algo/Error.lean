import Mathlib.Data.Nat.Notation
import Mathlib.Data.List.Infix

/-!
# Errors of the Algorand client

The client returns `anyhow` errors: a typed `AlgoError` that a caller can recover, or a bare
text. Texts are classified by what they contain, so every text is kept as the client
renders it.
-/

namespace BlockchainOps.Algo

/-- A duration in nanoseconds. -/
abbrev Duration := ℕ

/-- `Duration::as_millis`. -/
def Duration.asMillis (d : Duration) : ℕ := d / 1000000

/-- `Duration::as_secs`. -/
def Duration.asSecs (d : Duration) : ℕ := d / 1000000000

/-- `Duration::from_secs`. -/
def Duration.fromSecs (s : ℕ) : Duration := s * 1000000000

inductive AlgoErrorKind
  | hostUnreachable
  | transientFailure
  | httpError
  | rateLimited
  | dailyBudgetExceeded
deriving DecidableEq, Repr

/-- The `{:?}` form of a kind. -/
def AlgoErrorKind.debug : AlgoErrorKind → String
  | .hostUnreachable => "HostUnreachable"
  | .transientFailure => "TransientFailure"
  | .httpError => "HttpError"
  | .rateLimited => "RateLimited"
  | .dailyBudgetExceeded => "DailyBudgetExceeded"

structure AlgoError where
  kind : AlgoErrorKind
  operation : String
  message : String
  status : Option ℕ
  retryAfter : Option Duration
deriving DecidableEq, Repr

/-- `anyhow::Error`: a typed error, or a text. -/
inductive Error
  | typed (e : AlgoError)
  | text (msg : String)
deriving DecidableEq, Repr

/-- Two decimal digits (`{:02}`). -/
def pad2 (n : ℕ) : String := if n < 10 then s!"0{n}" else s!"{n}"

/-- Whether `s` contains `pat`. -/
def containsText (s pat : String) : Bool := decide (pat.toList <:+: s.toList)

/-- `to_lowercase` on the ASCII letters. The texts searched for below cannot tell it from the whole:
no other character becomes one of their letters but U+0130, which becomes an `i` and a combining
dot, and none of the texts ends with an `i`. -/
def toLowercase (s : String) : String := String.ofList (s.toList.map Char.toLower)

namespace AlgoError

/-- The `Display` form. -/
def display (e : AlgoError) : String :=
  match e.status, e.retryAfter with
  | some status, _ =>
    s!"AlgoError ({e.kind.debug}, http {status}): operation '{e.operation}' failed: {e.message}"
  | none, some retryAfter =>
    s!"AlgoError ({e.kind.debug}, retry after {retryAfter.asMillis} ms): operation '{e.operation}' failed: {e.message}"
  | none, none => s!"AlgoError ({e.kind.debug}): operation '{e.operation}' failed: {e.message}"

def transient (operation message : String) : AlgoError :=
  { kind := .transientFailure, operation, message, status := none, retryAfter := none }

def unreachable (operation message : String) : AlgoError :=
  { kind := .hostUnreachable, operation, message, status := none, retryAfter := none }

def rateLimited (operation : String) (retryAfter : Duration) : AlgoError :=
  { kind := .rateLimited, operation,
    message := s!"outbound rate limit reached; retry after {retryAfter.asMillis} ms",
    status := none, retryAfter := some retryAfter }

def dailyBudgetExceeded (retryAfter : Duration) (dayStartOffsetSecs : ℕ) : AlgoError :=
  let minutes := (retryAfter.asSecs + 59) / 60
  let offset := dayStartOffsetSecs % 86400
  { kind := .dailyBudgetExceeded, operation := "algod call",
    message := s!"daily request budget exhausted; resets in {minutes} minutes at {pad2 (offset / 3600)}{pad2 (offset % 3600 / 60)}Z",
    status := none, retryAfter := some retryAfter }

def http (operation : String) (status : ℕ) (message : String) : AlgoError :=
  { kind := .httpError, operation, message, status := some status, retryAfter := none }

def isForbidden (e : AlgoError) : Bool := e.status = some 403

def isQuota (e : AlgoError) : Bool :=
  e.isForbidden || containsText (toLowercase e.message) "quota"

end AlgoError

namespace Error

/-- `to_string`. -/
def display : Error → String
  | typed e => e.display
  | text msg => msg

/-- `downcast_ref::<AlgoError>`. -/
def downcast : Error → Option AlgoError
  | typed e => some e
  | text _ => none

/-- `AlgoError::contextualize`. -/
def contextualize (operation : String) (e : Error) : Error :=
  match e with
  | typed _ => e
  | text msg => text s!"{operation}: {msg}"

/-- `AlgoError::is_host_unreachable`, which searches the rendered text. -/
def isHostUnreachable (e : Error) : Bool :=
  let s := toLowercase e.display
  containsText s "tcp connect error"
    || containsText s "connection refused"
    || containsText s "connection reset"
    || containsText s "timeout"
    || containsText s "dns error"
    || containsText s "host unreachable"
    || containsText s "error sending request"

end Error

end BlockchainOps.Algo
