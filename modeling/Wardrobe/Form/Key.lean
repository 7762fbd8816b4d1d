import Wardrobe.Text.Case
import Wardrobe.Text.Number
import Wardrobe.Text.Pieces
/-
Form keys: the plugin that a record comes from and the record's number in it.

The game treats plugin names as file names, so two keys name the same record when their numbers
agree and their plugins agree up to the case of ASCII letters.  The spelling of the plugin is kept
all the same, because reports show it.
-/

namespace Wardrobe

structure FormKey where
  plugin : Text
  localId : UInt32
  deriving DecidableEq, Repr

def pluginEndings : List Text := [".esp", ".esm", ".esl"]

/-- A plugin file name: one of the endings after at least one character. -/
def isPluginFile (t : Text) : Bool :=
  4 < t.length && pluginEndings.any fun ending => Text.endsWithAscii ending t

namespace FormKey

def same (a b : FormKey) : Bool := a.localId == b.localId && Text.sameAscii a.plugin b.plugin

/-- The digits of a record number, without the mark of hexadecimal notation. -/
def hexDigits : Text → Text
  | '0' :: 'x' :: rest => rest
  | '0' :: 'X' :: rest => rest
  | t => t

def ofParts? (plugin number : Text) : Option FormKey :=
  let plugin := Text.trim plugin
  if isPluginFile plugin then
    (Text.readUInt32? 16 (hexDigits (Text.trim number))).map fun localId => ⟨plugin, localId⟩
  else none

/-- A key in either spelling: `0x800~Plugin.esp` or `Plugin.esp|0x800`.  A tilde decides for the
first spelling, wherever it stands. -/
def read? (t : Text) : Option FormKey :=
  let t := Text.trim t
  match Text.cutAt '~' t with
  | some (number, plugin) => ofParts? plugin number
  | none => (Text.cutAt '|' t).bind fun (plugin, number) => ofParts? plugin number

def numberText (k : FormKey) : Text := "0x" ++ Text.hexadecimal k.localId.toNat

/-- The spelling of SPID files: `0x800~Plugin.esp`. -/
def spidText (k : FormKey) : Text := k.numberText ++ "~" ++ k.plugin

/-- The spelling of SkyPatcher files, also used in reports: `Plugin.esp|0x800`. -/
def text (k : FormKey) : Text := k.plugin ++ "|" ++ k.numberText

theorem same_iff {a b : FormKey} : same a b = true ↔
    a.localId = b.localId ∧ Text.asciiLower a.plugin = Text.asciiLower b.plugin := by
  simp [same, Text.sameAscii]

theorem same_refl (a : FormKey) : same a a = true := by simp [same_iff]

theorem same_comm (a b : FormKey) : same a b = same b a := by
  rw [Bool.eq_iff_iff, same_iff, same_iff]
  exact ⟨fun h => ⟨h.1.symm, h.2.symm⟩, fun h => ⟨h.1.symm, h.2.symm⟩⟩

theorem same_trans {a b c : FormKey} (hab : same a b = true) (hbc : same b c = true) :
    same a c = true := by
  rw [same_iff] at *
  exact ⟨hab.1.trans hbc.1, hab.2.trans hbc.2⟩

end FormKey
end Wardrobe
