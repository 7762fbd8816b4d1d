import Wardrobe.Json.Reader
import Wardrobe.Rule.Basic
/-
Settings of the engine, each with a default.
-/

namespace Wardrobe

/-- `skyPatcherFolder` is seen from the data folder, and `reservedFileName` names the one file in it
that holds no rules.  `priorityMarker` is put before suggested file names.  `parallel` is a wish of
the caller's that changes no result. -/
structure Settings where
  spidSuffix : Text
  skyPatcherFolder : Text
  reservedFileName : Text
  priorityMarker : Char
  parallel : Bool
  deriving DecidableEq, Repr

inductive SettingsFault where
  | malformed
  | emptySuffix
  | badMarker (marker : Char)
  deriving DecidableEq, Repr

def SettingsFault.message : SettingsFault → Text
  | malformed => "not the JSON of settings"
  | emptySuffix => "spidSuffix must not be empty"
  | badMarker marker =>
    "priorityMarker '" ++ [marker] ++ "' must be an ASCII letter or digit"

namespace Settings

def default : Settings :=
  { spidSuffix := "_DISTR.ini"
    skyPatcherFolder := "SKSE/Plugins/SkyPatcher/npc"
    reservedFileName := "SkyPatcher.ini"
    priorityMarker := 'Z'
    parallel := true }

/-- What the name of a rule file of the format has to end in. -/
def suffixFor (s : Settings) : Dialect → Text
  | .spid => s.spidSuffix
  | .skyPatcher => ".ini"

def checked (s : Settings) : Except SettingsFault Settings :=
  if (Text.trim s.spidSuffix).isEmpty then .error .emptySuffix
  else if s.priorityMarker.isAlphanum then .ok s
  else .error (.badMarker s.priorityMarker)

open Json in
def reader : Reader Settings :=
  record
    [.mayHave "spidSuffix" text fun s spidSuffix => { s with spidSuffix },
     .mayHave "skypatcherDir" text fun s folder => { s with skyPatcherFolder := folder },
     .mayHave "reservedFileName" text fun s name => { s with reservedFileName := name },
     .mayHave "priorityMarker" character fun s marker => { s with priorityMarker := marker },
     .mayHave "parallel" boolean fun s parallel => { s with parallel }]
    default

def read (t : Text) : Except SettingsFault Settings :=
  match Json.readAll reader t with
  | .ok s => checked s
  | .error _ => .error .malformed

end Settings
end Wardrobe
