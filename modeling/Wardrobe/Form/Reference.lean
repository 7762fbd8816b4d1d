import Wardrobe.Form.Record
/-
References: what a literal in a rule turns out to name.
-/

namespace Wardrobe

/-- A record of a known kind, or a whole plugin. -/
inductive Reference where
  | form (kind : Form.Kind) (key : FormKey) (editorId : Option Text)
  | plugin (name : Text)
  deriving DecidableEq, Repr

namespace Reference

/-- Both references name the same thing.  Editor ids and the case of plugin names are spelling. -/
def same : Reference → Reference → Bool
  | form k₁ a _, form k₂ b _ => k₁ == k₂ && a.same b
  | plugin a, plugin b => Text.sameAscii a b
  | _, _ => false

def kind? : Reference → Option Form.Kind
  | form kind _ _ => some kind
  | plugin _ => none

def key? : Reference → Option FormKey
  | form _ key _ => some key
  | plugin _ => none

def editorId? : Reference → Option Text
  | form _ _ editorId => editorId
  | plugin _ => none

def isPlugin : Reference → Bool
  | form .. => false
  | plugin _ => true

/-- The text of the reference in a SPID field: the editor id where there is one. -/
def spidText : Reference → Text
  | form _ key editorId => editorId.getD key.spidText
  | plugin name => name

/-- The text of the reference in a SkyPatcher list: always the key. -/
def skyPatcherText : Reference → Text
  | form _ key _ => key.text
  | plugin name => name

/-- The reference in a sentence, such as `faction BanditFaction`. -/
def describe : Reference → Text
  | form kind key editorId => kind.label ++ " " ++ editorId.getD key.text
  | plugin name => "plugin " ++ name

end Reference

def Form.reference (r : Form) : Reference := .form r.kind r.key r.editorId

end Wardrobe
