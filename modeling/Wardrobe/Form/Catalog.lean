import Wardrobe.Form.Reference
import Wardrobe.Text.Case
/-
The catalog of all records that a rule can refer to, and the resolution of literals.

A literal is a plugin name, a form key in either spelling, or an editor id.  Editor ids may be
shared by records of several kinds, so a literal is resolved by trying a list of look-ups in order
and taking the first that finds something.
-/

namespace Wardrobe

/-- The records, the names they can be found by, and the known plugins.

`forms` holds at most one record for a key.  `names` lists a key under the lower case of each
editor id that a record of that key was ever stored with, in order of arrival, and `plugins` holds
plugin names in ASCII lower case. -/
structure Catalog where
  forms : List Form
  names : List (Text × FormKey)
  plugins : List Text
  deriving Repr

/-- One look-up: a plugin by name, a record by key, or a record of one kind by editor id. -/
inductive LookUp where
  | plugin
  | key (kind : Option Form.Kind)
  | editorId (kind : Form.Kind)
  deriving DecidableEq, Repr

namespace Catalog

def empty : Catalog := ⟨[], [], []⟩

def find? (c : Catalog) (key : FormKey) : Option Form :=
  c.forms.find? fun r => r.key.same key

def size (c : Catalog) : Nat := c.forms.length

def knowsPlugin (c : Catalog) (name : Text) : Bool := c.plugins.contains (Text.asciiLower name)

def addPlugin (c : Catalog) (name : Text) : Catalog :=
  if c.knowsPlugin name then c else { c with plugins := c.plugins ++ [Text.asciiLower name] }

/-- List the key under an editor id, once. -/
def addName (c : Catalog) (editorId : Text) (key : FormKey) : Catalog :=
  let folded := Text.lower editorId
  if c.names.any fun (name, k) => name == folded && k.same key then c
  else { c with names := c.names ++ [(folded, key)] }

/-- Store a record in place of any record of the same key. -/
def insert (c : Catalog) (r : Form) : Catalog :=
  let c := c.addPlugin r.key.plugin
  let c := match r.editorId with
    | some editorId => c.addName editorId r.key
    | none => c
  { c with forms := c.forms.filter (fun other => !other.key.same r.key) ++ [r] }

/-- Store a record for the end of a link, unless its key is taken. -/
def insertLink (c : Catalog) (kind : Form.Kind) (link : Form.Link) : Catalog :=
  match c.find? link.key with
  | some _ => c
  | none => c.insert ⟨link.key, kind, link.editorId, none⟩

/-- Store a character, replacing what its key held, and then the records it points to. -/
def insertNpc (c : Catalog) (npc : Npc) : Catalog :=
  npc.links.foldl (fun c (kind, link) => c.insertLink kind link)
    ((c.insert npc.record).addPlugin npc.sourcePlugin)

/-- The catalog of the given records, then characters, with the given plugins known. -/
def ofRecords (forms : List Form) (npcs : List Npc) (plugins : List Text) : Catalog :=
  npcs.foldl insertNpc (forms.foldl insert (plugins.foldl addPlugin empty))

def keysNamed (c : Catalog) (editorId : Text) : List FormKey :=
  let folded := Text.lower editorId
  c.names.filterMap fun (name, key) => if name = folded then some key else none

def pluginCalled (c : Catalog) (literal : Text) : Option Reference :=
  if isPluginFile literal && c.knowsPlugin literal then some (.plugin literal) else none

def formAt (c : Catalog) (kind : Option Form.Kind) (literal : Text) : Option Reference := do
  let key ← FormKey.read? literal
  let r ← c.find? key
  if kind.all (· == r.kind) then some r.reference else none

def formCalled (c : Catalog) (kind : Form.Kind) (literal : Text) : Option Reference :=
  (((c.keysNamed literal).filterMap c.find?).find? (·.kind == kind)).map Form.reference

def lookUp (c : Catalog) (literal : Text) : LookUp → Option Reference
  | .plugin => c.pluginCalled literal
  | .key kind => c.formAt kind literal
  | .editorId kind => c.formCalled kind literal

/-- The first of the look-ups that finds the trimmed literal.  Nothing is found by no text. -/
def resolveBy (c : Catalog) (stages : List LookUp) (literal : Text) : Option Reference :=
  let literal := Text.trim literal
  if literal.isEmpty then none else stages.findSome? (c.lookUp literal)

/-- The look-ups for a literal of unknown kind: plugin, key, then editor id kind by kind. -/
def untypedStages : List LookUp :=
  .plugin :: .key none :: Form.Kind.all.map .editorId

/-- The look-ups for a literal that has to be of one kind. -/
def typedStages (kind : Form.Kind) : List LookUp := [.key (some kind), .editorId kind]

def resolve (c : Catalog) (literal : Text) : Option Reference := c.resolveBy untypedStages literal

def resolveAs (c : Catalog) (kind : Form.Kind) (literal : Text) : Option Reference :=
  c.resolveBy (typedStages kind) literal

end Catalog
end Wardrobe
