import InterfaceTree.Instance.Instantiate
import InterfaceTree.Store

/-!
# Workshops

A workshop instantiates one tree after another with the classes of one module as templates. Its
cache lives until a whole module takes the instances.
-/
namespace InterfaceTree

structure Workshop where
  work : Instantiation
  externals : List ClassId
  templates : Module ClassId
  kept : List (Module ClassId) := []

namespace Workshop

def start (externals : List Class) (templates : Module Class) : Workshop :=
  let (owned, store) := Store.hold {} { classes := externals }
  let (templates, store) := store.hold templates
  { work := { store }, externals := owned.classes, templates }

def size (w : Workshop) : Nat := w.work.cache.size

def holders (w : Workshop) : Holders :=
  ⟨w.externals, w.templates.classes :: w.work.cache.toList.map (·.id) :: w.kept.map (·.classes)⟩

/-- The classes of a result that is a module, and none of another result. -/
def members : Node ClassId → List ClassId
  | .module x => x.classes
  | _ => []

/-- The class that a result refers to, while it is alive. -/
def target? (w : Workshop) : Node ClassId → Option Class
  | .type (.ref reference) => (reference.target.filter w.holders.isAlive).map w.work.store.read
  | _ => none

def shown (w : Workshop) : Node ClassId → Node Class
  | .module x => .module (w.work.store.load x)
  | .constant c => .constant c
  | .function f => .function f
  | .signature s => .signature s
  | .parameter p => .parameter p
  | .classDecl c => .classDecl c
  | .templateItem i => .templateItem i
  | .type t => .type t

/-- Without a tree of its own the step takes the module of the templates. -/
def run (w : Workshop) (indexed : Bool) (tree : Option (Node Class)) :
    Except Fault (Node ClassId) × Workshop :=
  let objects := w.work.store.objectsOf w.templates
  let tree := tree.getD (.module (w.work.store.load w.templates))
  let walk := if indexed then tree.instantiate (ClassIndex.ofList objects)
    else tree.instantiate objects
  let (result, work) := walk.run.run w.work
  match result with
  | .ok (.module x) => (result, { w with work, kept := x :: w.kept })
  | _ => (result, { w with work })

end Workshop
end InterfaceTree
