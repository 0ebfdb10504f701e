import Mathlib.Data.List.Basic

/-! YAML documents as trees. The key of an entry is its scalar, which is empty for a key that is none.
`members` lists the nodes with their key paths, in the order of the document. -/
namespace HCServer.Lib
namespace YAML

inductive Node
  | null
  | scalar (text : String)
  | sequence (items : List Node)
  | map (entries : List (String × Node))
  deriving Repr

namespace Node

/-- The text of a scalar, empty for other nodes. -/
def Scalar : Node → String
  | .scalar text => text
  | _ => ""

def IsScalar : Node → Bool
  | .scalar _ => true
  | _ => false

mutual

def members : Node → List (List String × Node)
  | .map entries => ([], .map entries) :: membersOf entries
  | n => [([], n)]

def membersOf : List (String × Node) → List (List String × Node)
  | [] => []
  | (key, n) :: entries => (members n).map (fun m => (key :: m.1, m.2)) ++ membersOf entries

end

end Node
end YAML

/-- The keys of a path with dots between them. -/
def dotted (path : List String) : String := ".".intercalate path

end HCServer.Lib
