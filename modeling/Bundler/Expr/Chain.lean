import Bundler.Identifier
import Bundler.Statement

/-!
# Access chains

A chain of property reads, `root.first["second"].third`, taken apart into its root and the keys that
are read. This is possible as long as every key in brackets is a string literal that could stand
behind a dot as well.
-/

namespace Bundler

/-- A key of a chain, and where it stands in the source. -/
structure ChainKey where
  name : String
  range : Range
  deriving Repr, DecidableEq, Inhabited

namespace Expr

/-- The key that an expression in brackets gives to a chain. -/
def bracketKey? : Expr Label → Option ChainKey
  | .literal label (.string name) => if Identifier.isPlain name then some ⟨name, label.range⟩ else none
  | _ => none

/-- Where the key behind a dot stands: at the end of the access. -/
def dotKey (label : Label) (key : String) : ChainKey :=
  ⟨key, ⟨label.range.stop - key.utf8ByteSize, label.range.stop⟩⟩

/-- The root of a chain and its keys from the root outwards, unless a key is not known. -/
def chain? : Expr Label → Option (Expr Label × List ChainKey)
  | .member label object key => do
    let (root, keys) ← object.chain?
    return (root, keys ++ [dotKey label key])
  | .index _ object key => do
    let key ← key.bracketKey?
    let (root, keys) ← object.chain?
    return (root, keys ++ [key])
  | root => some (root, [])

/-- The name that an expression consists of. -/
def name? {α : Type} : Expr α → Option String
  | .ident _ name => some name
  | _ => none

end Expr

/-- The root of a chain and its keys. A statement reads nothing by itself. -/
def Fragment.chain? : Fragment → Option (Fragment × List ChainKey)
  | .statement body => some (.statement body, [])
  | .expr body => body.chain?.map fun (root, keys) => (.expr root, keys)

/-- The name that a fragment consists of. -/
def Fragment.name? : Fragment → Option String
  | .statement _ => none
  | .expr body => body.name?

end Bundler
