import BlockchainOps.Algo.Address
import BlockchainOps.Lib.Text
import BlockchainOps.Lib.Wire

/-!
# Application arguments

Each argument of an application call is one byte string: a number as eight bytes, most
significant first, and bytes and texts as they are. `arc4FrameArgs` puts the length in front of the
arguments that a method's signature says are of a dynamic type.
-/

namespace BlockchainOps.Algo

inductive AppArg
  | bytes (b : Bytes)
  | utf8 (s : String)
  | uint (v : UInt64)
deriving DecidableEq, Repr

def AppArg.toBytes : AppArg → Bytes
  | bytes b => b
  | utf8 s => BlockchainOps.utf8 s
  | uint v => Wire.beBytes 8 v.toNat

/-! ## Framing -/

/-- What stands before the bracket that closes `depth` open ones. -/
def untilClosed (depth : ℕ) : List Char → Option (List Char)
  | [] => none
  | c :: cs =>
    if c = '(' then (untilClosed (depth + 1) cs).map (c :: ·)
    else if c = ')' then
      if depth = 1 then some [] else (untilClosed (depth - 1) cs).map (c :: ·)
    else (untilClosed depth cs).map (c :: ·)

/-- Split at the commas outside all brackets; `segment` is what was read since the last one. The
source counts the depth in an `i32`, which is enough for a signature shorter than 2^31 bytes. -/
def splitTopLevel (depth : ℤ) (segment : List Char) : List Char → List String
  | [] => [Text.trim (String.ofList segment)]
  | c :: cs =>
    if c = '(' ∨ c = '[' then splitTopLevel (depth + 1) (segment ++ [c]) cs
    else if c = ')' ∨ c = ']' then splitTopLevel (depth - 1) (segment ++ [c]) cs
    else if c = ',' ∧ depth = 0 then
      Text.trim (String.ofList segment) :: splitTopLevel depth [] cs
    else splitTopLevel depth (segment ++ [c]) cs

/-- The argument types in a method's signature, if it has an argument list. -/
def abiArgTypes (sig : String) : Option (List String) := do
  let inner ← match sig.toList.dropWhile (· ≠ '(') with
    | [] => none
    | _ :: rest => untilClosed 1 rest
  if (Text.trim (String.ofList inner)).isEmpty then pure []
  else pure (splitTopLevel 0 [] inner)

example : abiArgTypes "foo((uint64,byte[]), address)void" = some ["(uint64,byte[])", "address"] := by
  decide

/-- Frame one argument of a type, where it is known. -/
def arc4FrameArg (ty : Option String) (i : ℕ) (arg : AppArg) : Except Error AppArg :=
  if ty = some "byte[]" ∨ ty = some "string" then
    let raw := arg.toBytes
    if raw.length < 2 ^ 16 then .ok (.bytes (Wire.beBytes 2 raw.length ++ raw))
    else
      .error (.text
        s!"ARC-4 byte[]/string argument {i} is {raw.length} bytes, over the u16 length limit")
  else .ok arg

def arc4FrameArgs (method : Option String) (args : List AppArg) : Except Error (List AppArg) :=
  let types := method >>= abiArgTypes
  args.zipIdx.mapM fun (arg, i) => arc4FrameArg (types >>= fun types => types[i]?) i arg

end BlockchainOps.Algo
