import LoopStorm.Engine.Telemetry
import LoopStorm.Shim.Protocol

/-!
# The hash of a call's arguments

Both shims hash a canonical text of the arguments: `jcs.ts` and `args-hash.ts`
of the IPC client, `_jcs.py` and `_args_hash.py` of the Python shim.

* `jcs` — the text, with the members of every object sorted; the two shims
  differ in the order of the keys and in the text of a number.
* `Ts.argsHash` — sorts by UTF-16 code units.
* `Py.argsHash` — sorts by the bytes of the little-endian UTF-16 encoding.
-/

namespace LoopStorm.Shim

open LoopStorm.Engine

section Jcs

variable {σ ν : Type} [NumberText ν] (quote : σ → List Char) (le : σ → σ → Bool)

mutual
/-- Serialize a value to canonical JSON; `none` when a number has no text. -/
def jcs : Json σ ν → Option (List Char)
  | .null => some ['n', 'u', 'l', 'l']
  | .bool true => some ['t', 'r', 'u', 'e']
  | .bool false => some ['f', 'a', 'l', 's', 'e']
  | .num n => NumberText.canonical n
  | .str s => some (quote s)
  | .arr xs => (jcsElems xs).map fun ts => '[' :: (Json.joinComma ts ++ [']'])
  | .obj ms => (jcsMembers ms).map fun ps =>
    let sorted := ps.mergeSort (fun p q => le p.1 q.1)
    '{' :: (Json.joinComma (sorted.map fun p => quote p.1 ++ ':' :: p.2) ++ ['}'])

/-- `jcs` over the elements of an array. -/
def jcsElems : List (Json σ ν) → Option (List (List Char))
  | [] => some []
  | x :: xs => do
    let t ← jcs x
    let ts ← jcsElems xs
    return t :: ts

/-- The members of an object, each key with the text of its value. -/
def jcsMembers : List (σ × Json σ ν) → Option (List (σ × List Char))
  | [] => some []
  | (k, v) :: ms => do
    let t ← jcs v
    let ps ← jcsMembers ms
    return (k, t) :: ps
end

end Jcs

variable {ν : Type} [NumberText ν] [Sha256]

/-- Serialize a value to RFC 8785 canonical JSON. -/
def Ts.jcsSerialize (v : Json Ts.Str ν) : Option (List Char) :=
  jcs Ts.quote (fun k l => decide (k ≤ l)) v

/-- Compute the args_hash for a tool call's arguments; `none` when it throws. -/
def Ts.argsHash (args : Json Ts.Str ν) : Option Ts.Str :=
  (Ts.jcsSerialize args).map fun canonical => Ts.lit (sha256Hex (String.ofList canonical))

/-- The sort key: the bytes of the code units, the low byte first. -/
def Py.utf16SortKey (key : String) : List UInt8 :=
  (Ts.lit key).flatMap fun u : UInt16 => [u.toUInt8, (u >>> 8).toUInt8]

/-- Serialize a value to RFC 8785 canonical JSON. -/
def Py.jcsSerialize (v : Json String ν) : Option (List Char) :=
  jcs Json.quote (fun k l => decide (Py.utf16SortKey k ≤ Py.utf16SortKey l)) v

/-- Compute the args_hash for a tool call's arguments; `none` when it raises,
which it also does for a string with a surrogate: in a key when the keys are
sorted, elsewhere when the text is encoded. -/
def Py.argsHash (args : Json Py.Str ν) : Option Py.Str := do
  let v ← Py.encodeValue args
  let canonical ← Py.jcsSerialize v
  return Py.lit (sha256Hex (String.ofList canonical))

end LoopStorm.Shim
