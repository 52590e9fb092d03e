import JvmSymbols.Number.Binary64

/-! Values of TOML documents, and tables under construction. A table keeps its entries in the order of the text; a
document is a table. A table may be opened by a header, implied by the header of a table below it, or built by
dotted keys; which of these it is decides what may still be added to it. What moment a date or a time names is of
no interest here. -/
namespace JvmSymbols
namespace Toml

inductive Value
  | string (s : String)
  | integer (n : Int)
  | float (x : Binary64)
  | boolean (b : Bool)
  | datetime
  | array (elements : List Value)
  | table (entries : List (String × Value))
  deriving Repr

inductive Origin
  | opened
  | implied
  | dotted
  deriving DecidableEq, Repr

inductive Item
  | value (v : Value)
  | table (origin : Origin) (items : List (String × Item))
  | tables (elements : List (List (String × Item)))

abbrev Items := List (String × Item)

namespace Items

def replace (items : Items) (key : String) (item : Item) : Items :=
  items.map fun (k, old) => if k = key then (k, item) else (k, old)

def append (items : Items) (key : String) (item : Item) : Items := items ++ [(key, item)]

def remove (items : Items) (key : String) : Items := items.filter (fun (k, _) => k ≠ key)

/-- Applies `f` to the table at the end of a path and returns what `f` found beside the changed
items. Missing tables are made on the way, with origin `made`; an array of tables stands for its last
element. A path of dotted keys does not lead through a table that a header opened. -/
def descend {β : Type} (made : Origin) (f : Origin → Items → Option (β × Items)) :
    List String → Origin → Items → Option (β × Items)
  | [], origin, items => f origin items
  | key :: path, _, items =>
    match items.lookup key with
    | none => do
      let (b, below) ← descend made f path made []
      return (b, items.append key (.table made below))
    | some (.value _) => none
    | some (.table origin below) =>
      if made = .dotted && origin = .opened then none
      else do
        let (b, below) ← descend made f path origin below
        return (b, items.replace key (.table origin below))
    | some (.tables elements) =>
      match elements.getLast? with
      | none => none
      | some last => do
        let (b, last) ← descend made f path .opened last
        return (b, items.replace key (.tables (elements.dropLast ++ [last])))

/-- Adds a key with its value. The parts of a dotted key before the last lead to tables that dotted
keys have built, and no key is given twice. -/
def addEntry (items : Items) (key : List String) (v : Value) : Option Items :=
  match key.getLast? with
  | none => none
  | some name =>
    let add (origin : Origin) (items : Items) : Option (Unit × Items) :=
      if decide (origin = .dotted) = key.dropLast.isEmpty then none
      else if (items.lookup name).isSome then none
      else some ((), items.append name (.value v))
    (descend .dotted add key.dropLast .opened items).map Prod.snd

end Items

mutual

def Item.toValue : Item → Value
  | .value v => v
  | .table _ items => .table (entriesOf items)
  | .tables elements => .array (tablesOf elements)

def entriesOf : List (String × Item) → List (String × Value)
  | [] => []
  | (key, item) :: rest => (key, item.toValue) :: entriesOf rest

def tablesOf : List (List (String × Item)) → List Value
  | [] => []
  | items :: rest => .table (entriesOf items) :: tablesOf rest

end

def inlineTable (entries : List (List String × Value)) : Option Value :=
  (entries.foldlM (fun (items : Items) (key, v) => items.addEntry key v) []).map
    fun items => .table (entriesOf items)

/-- A document read up to some line: the tables that are complete and the one that is open, with
the path of its header. -/
structure Draft where
  root : Items
  current : Items
  path : List String
  isElement : Bool

namespace Draft

def empty : Draft := ⟨[], [], [], false⟩

def close (d : Draft) : Option Items :=
  match d.path.getLast? with
  | none => some d.current
  | some name =>
    let put (_ : Origin) (items : Items) : Option (Unit × Items) :=
      match d.isElement, items.lookup name with
      | true, none => some ((), items.append name (.tables [d.current]))
      | true, some (.tables elements) => some ((), items.replace name (.tables (elements ++ [d.current])))
      | false, none => some ((), items.append name (.table .opened d.current))
      | false, some (.table origin _) =>
        if origin = .opened then none else some ((), items.replace name (.table .opened d.current))
      | _, _ => none
    (Items.descend .implied put d.path.dropLast .opened d.root).map Prod.snd

/-- Opens a table. What headers below it have implied so far moves into it, and it takes its place
behind its neighbours. -/
def openTable (d : Draft) (path : List String) : Option Draft :=
  match path.getLast? with
  | none => none
  | some name => do
    let root ← d.close
    let take (_ : Origin) (items : Items) : Option (Items × Items) :=
      match items.lookup name with
      | none => some ([], items)
      | some (.table .implied below) => some (below, items.remove name)
      | some _ => none
    let (below, root) ← Items.descend .implied take path.dropLast .opened root
    return ⟨root, below, path, false⟩

def openElement (d : Draft) (path : List String) : Option Draft :=
  match path.getLast? with
  | none => none
  | some name => do
    let root ← d.close
    let reserve (_ : Origin) (items : Items) : Option (Unit × Items) :=
      match items.lookup name with
      | none => some ((), items.append name (.tables []))
      | some (.tables _) => some ((), items)
      | some _ => none
    let (_, root) ← Items.descend .implied reserve path.dropLast .opened root
    return ⟨root, [], path, true⟩

def addEntry (d : Draft) (key : List String) (v : Value) : Option Draft := do
  let items ← d.current.addEntry key v
  return { d with current := items }

end Draft
end Toml
end JvmSymbols
