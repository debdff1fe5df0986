import InterfaceTree.Instance.Instantiate
import InterfaceTree.Store
import InterfaceTree.Declaration

/-!
# Workspaces

Copies share class objects, so linking through one register shows in another; passes that rebuild a
module give its classes new identities and leave old references pointing at the old objects.
-/
namespace InterfaceTree

structure Workspace where
  store : Store := {}
  /-- Classes that are held for the whole life of the workspace. -/
  externals : List ClassId := []
  registers : Std.TreeMap String (Module ClassId) := ∅

inductive Search
  | linear
  | indexed

inductive Command
  | load (x : Module Class)
  | copy (source : String)
  | resolve
  | instantiate
  | refer
  | dropReceivers
  | replace (f : TypeMapping)
  | linkOwn
  /-- Links with the classes of another register, or of the same. -/
  | linkWith (search : Search) (symbols : String)
  | instantiateUnlinked (symbols : String)
  | addConstant (c : Constant)
  | addFunction (f : Function)
  | addClass (c : Class)
  | addExternal (number : Nat)
  | removeClass (index : Nat)
  | forget
  | same (other : String)
  | print (indent : Nat)
  | display
  | hasGenericClasses
  | countNames
  | lookup (search : Search) (name : String)
  | findClass (name : String)
  | inspect (className name : String)
  | follow (className : String) (path : List String)

/-- One step along a path of constants that refer to classes. -/
inductive Stop
  | noReference
  /-- The cell is empty or its class has died. -/
  | unreachable (target : Option ClassId)
  | reached (name : String) (target : ClassId)

inductive Reply
  | done
  | refused (fault : Fault)
  | linked (written : Nat)
  /-- The cells that were written, also when linking failed. -/
  | linkedWith (fault : Option Fault) (written : Nat)
  | truth (value : Bool)
  | text (result : Except Fault String)
  | display (text : Option String)
  | size (names : Nat)
  | found (result : Except UnknownClass Nat)
  | position (index : Option Nat)
  | members (constant : Option Constant) (method : Option Function) (isGeneric : Bool)
  | path (stops : List Stop)
  | noSuchClass (name : String)

namespace Workspace

/-- Externals get the first identities, in order. -/
def start (externals : List Class) : Workspace :=
  let (owned, store) := Store.hold {} { classes := externals }
  { store, externals := owned.classes }

/-- An unused register holds the empty module. -/
def held (w : Workspace) (register : String) : Module ClassId := w.registers.getD register {}

def shown (w : Workspace) (register : String) : Module Class := w.store.load (w.held register)

def put (w : Workspace) (register : String) (x : Module ClassId) : Workspace :=
  { w with registers := w.registers.insert register x }

def holders (w : Workspace) : Holders :=
  ⟨w.externals, w.registers.toList.map (·.2.classes)⟩

def rebuild (w : Workspace) (register : String) (x : Module Class) : Workspace :=
  let (held, store) := w.store.hold x
  { w with store }.put register held

/-- A pass that fails leaves the register as it was. -/
def attempt (w : Workspace) (register : String) (pass : StoreM (Module ClassId)) :
    Reply × Workspace :=
  let (result, store) := pass.run.run w.store
  let w := { w with store }
  match result with
  | .ok x => (.done, w.put register x)
  | .error fault => (.refused fault, w)

/-- The cells that linking wrote stay written when it fails. -/
def link (w : Workspace) (register : String) (find : String → Option ClassId) :
    Linking × Workspace :=
  let (x, l) := w.store.link find (w.held register)
  (l, { w with store := l.store }.put register x)

def objects (w : Workspace) (register : String) : List ClassObject :=
  w.store.objectsOf (w.held register)

def find? (w : Workspace) (search : Search) (register name : String) : Option ClassObject :=
  match search with
  | .linear => ClassTable.find? (w.objects register) name
  | .indexed => ClassTable.find? (ClassIndex.ofList (w.objects register)) name

def linkFault (l : Linking) : Option Fault :=
  match l.outcome with
  | .ok _ => none
  | .error fault => some fault

/-- Goes from class to class through the constants named on the path, as far as it leads. -/
def follow (w : Workspace) (c : Class) : List String → List Stop
  | [] => []
  | name :: rest =>
    match (c.constant? name).bind (·.type.reference?) with
    | none => [.noReference]
    | some reference =>
      match reference.target.filter w.holders.isAlive with
      | none => [.unreachable reference.target]
      | some id =>
        let next := w.store.read id
        .reached next.name id :: follow w next rest

/-- What a command changes lies in the register it is given. -/
def run (w : Workspace) (register : String) : Command → Reply × Workspace
  | .load x => (.done, w.rebuild register x)
  | .copy source => (.done, w.put register (w.held source))
  | .resolve => w.attempt register (InterfaceTree.resolve (w.held register))
  | .instantiate => w.attempt register (InterfaceTree.instantiate (w.held register))
  | .refer => (.done, w.rebuild register (w.shown register).withReferences)
  | .dropReceivers => (.done, w.rebuild register (w.shown register).dropReceivers)
  | .replace f => (.done, w.rebuild register ((w.shown register).replace f))
  | .linkOwn =>
    let (l, w) := w.link register (ClassTable.id? (w.store.indexOf (w.held register)))
    match l.outcome with
    | .ok written => (.linked written, w)
    | .error fault => (.refused fault, w)
  | .linkWith search symbols =>
    let index := ClassIndex.ofList (w.objects symbols)
    let find := match search with
      | .linear => ClassTable.id? (w.objects symbols)
      | .indexed => ClassTable.id? index
    let (l, w) := w.link register find
    (.linkedWith (linkFault l) l.written, w)
  | .instantiateUnlinked symbols =>
    w.attempt register (InterfaceTree.instantiateUnlinked (w.objects symbols) (w.held register))
  | .addConstant c =>
    let x := w.held register
    (.done, w.put register { x with constants := x.constants ++ [c] })
  | .addFunction f =>
    let x := w.held register
    (.done, w.put register { x with functions := x.functions ++ [f] })
  | .addClass c =>
    let x := w.held register
    let (id, store) := w.store.add c
    (.done, { w with store }.put register { x with classes := x.classes ++ [id] })
  | .addExternal number =>
    let x := w.held register
    (.done, w.put register { x with classes := x.classes ++ (w.externals[number]?).toList })
  | .removeClass index =>
    let x := w.held register
    (.done, w.put register { x with classes := x.classes.eraseIdx index })
  | .forget => (.done, { w with registers := w.registers.erase register })
  | .same other => (.truth (w.shown register == w.shown other), w)
  | .print indent => (.text ((w.shown register).print indent), w)
  | .display => (.display ((w.shown register).print defaultIndent).toOption, w)
  | .hasGenericClasses => (.truth (w.shown register).hasGenericClasses, w)
  | .countNames => (.size (w.store.indexOf (w.held register)).size, w)
  | .lookup search name =>
    match w.find? search register name with
    | some o => (.found (.ok ((w.held register).classes.idxOf o.id)), w)
    | none => (.found (.error ⟨name⟩), w)
  | .findClass name => (.position ((w.shown register).classIndex? name), w)
  | .inspect className name =>
    match w.find? .linear register className with
    | some o => (.members (o.decl.constant? name) (o.decl.method? name) o.decl.isGeneric, w)
    | none => (.noSuchClass className, w)
  | .follow className path =>
    match w.find? .linear register className with
    | some o => (.path (w.follow o.decl path), w)
    | none => (.noSuchClass className, w)

end Workspace
end InterfaceTree
