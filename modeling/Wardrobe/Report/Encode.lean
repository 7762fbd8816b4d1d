import Wardrobe.Json.Value
import Wardrobe.Report.Summary
/-
The JSON of records, rules and reports.

Members stand in the order in which their structures declare them.  Keys are written in the
SkyPatcher spelling, and what may be missing is null.
-/

namespace Wardrobe

open Json

def Json.text? (t : Option Text) : Json := ofOption str t

def Json.chance? (chance : Option UInt8) : Json := ofOption (fun c => nat c.toNat) chance

/-! ## Records -/

def FormKey.json (k : FormKey) : Json := str k.text

def Form.Kind.json : Form.Kind → Json
  | npc => str "Npc"
  | faction => str "Faction"
  | race => str "Race"
  | combatClass => str "Class"
  | combatStyle => str "CombatStyle"
  | outfit => str "Outfit"
  | voiceType => str "VoiceType"
  | keyword => str "Keyword"

def Form.Link.json (l : Form.Link) : Json :=
  obj [("key", l.key.json), ("editorId", text? l.editorId)]

def Form.json (r : Form) : Json :=
  obj [("key", r.key.json), ("kind", r.kind.json), ("editorId", text? r.editorId),
    ("name", text? r.name)]

def Membership.json (m : Membership) : Json :=
  obj [("faction", m.faction.json), ("rank", num m.rank.toInt)]

def Traits.json (t : Traits) : Json :=
  obj [("female", bool t.female), ("unique", bool t.unique), ("summonable", bool t.summonable),
    ("child", bool t.child), ("leveled", bool t.leveled)]

def Npc.json (n : Npc) : Json :=
  let link? := ofOption Form.Link.json
  obj [("id", n.id.json), ("name", text? n.name), ("editorId", text? n.editorId),
    ("sourcePlugin", str n.sourcePlugin), ("factions", list Membership.json n.factions),
    ("keywords", list Form.Link.json n.keywords), ("race", link? n.race),
    ("class", link? n.combatClass), ("defaultOutfit", link? n.defaultOutfit),
    ("sleepOutfit", link? n.sleepOutfit), ("combatStyle", link? n.combatStyle),
    ("voiceType", link? n.voiceType), ("template", text? n.template),
    ("level", nat n.level.toNat),
    ("skills", obj (n.skills.map fun (i, v) => (Text.decimal i.toNat, nat v.toNat))),
    ("traits", n.traits.json)]

def Snapshot.json (s : Snapshot) : Json :=
  obj [("plugins", list str s.plugins), ("forms", list Form.json s.forms),
    ("npcs", list Npc.json s.npcs)]

def Reference.json : Reference → Json
  | form kind key editorId =>
    obj [("type", str "form"), ("kind", kind.json), ("key", key.json),
      ("editorId", text? editorId)]
  | plugin name => obj [("type", str "plugin"), ("name", str name)]

/-! ## Rules -/

def Dialect.json : Dialect → Json
  | skyPatcher => str "SkyPatcher"
  | spid => str "Spid"

def Slot.json : Slot → Json
  | default => str "Default"
  | sleep => str "Sleep"

def Json.literal (t : Text) : Json := obj [("text", str t)]

def Criterion.Part.json (value : α → Json) (p : Criterion.Part α) : Json :=
  obj [("value", value p.value), ("negated", bool p.negated), ("wildcard", bool p.wildcard)]

def Criterion.json (value : α → Json) (s : Criterion α) : Json :=
  obj [("expressions", list (fun e => obj [("parts", list (Criterion.Part.json value) e)])
    s.expressions)]

def LevelRange.json (c : LevelRange) : Json :=
  obj [("attribute", ofOption (fun i => nat i.toNat) c.skill), ("min", nat c.min.toNat),
    ("max", ofOption (fun n => nat n.toNat) c.max)]

def Json.ofLevels (levels : List LevelRange) : Json :=
  obj [("clauses", list LevelRange.json levels)]

def Traits.Wanted.json (t : Traits.Wanted) : Json :=
  let asked := ofOption bool
  obj [("female", asked t.female), ("unique", asked t.unique),
    ("summonable", asked t.summonable), ("child", asked t.child), ("leveled", asked t.leveled)]

def UsedFilters.json (u : UsedFilters) : Json :=
  obj [("strings", bool u.strings), ("forms", bool u.forms), ("levels", bool u.levels),
    ("traits", bool u.traits)]

def Filters.json (f : Filters) : Json :=
  obj [("strings", f.strings.json literal), ("forms", f.forms.json Reference.json),
    ("levels", ofLevels f.levels), ("traits", f.traits.json)]

def Target.json : Target → Json
  | outfit slot ref => obj [("type", str "outfit"), ("slot", slot.json), ("outfit", ref.json)]
  | keyword tag => obj [("type", str "keyword"), ("tag", str tag)]

def Rule.json (r : Rule) : Json :=
  obj [("dialect", r.dialect.json), ("lineNumber", nat r.lineNumber), ("raw", str r.raw),
    ("target", r.target.json), ("filters", r.filters.json), ("chance", chance? r.chance),
    ("extra", text? r.extra)]

/-! ## Files -/

def LineKind.json : LineKind → Json
  | blank => str "Blank"
  | comment => str "Comment"
  | sectionHeader => str "Section"
  | keyValue => str "KeyValue"
  | rule => str "Rule"
  | unparseable => str "Unparseable"

def Diagnostic.json (d : Diagnostic) : Json :=
  obj [("lineNumber", nat d.lineNumber), ("raw", str d.raw), ("reason", str d.fault.message)]

def FileLine.json (l : FileLine) : Json :=
  obj [("number", nat l.number), ("raw", str l.raw), ("kind", l.kind.json)]

def Text.Encoding.json : Text.Encoding → Json
  | utf8 => str "Utf8"
  | windows1252 => str "Windows1252"

def RuleFile.json (f : RuleFile) : Json :=
  obj [("path", str f.path), ("fileName", str f.fileName), ("dialect", f.dialect.json),
    ("lines", list FileLine.json f.lines), ("rules", list Rule.json f.rules),
    ("diagnostics", list Diagnostic.json f.diagnostics), ("encoding", f.encoding.json)]

def Candidate.json (c : Candidate) : Json :=
  obj [("path", str c.path), ("dialect", c.dialect.json)]

def UnreadableFile.json (s : UnreadableFile) : Json :=
  obj [("path", str s.path), ("reason", str s.reason)]

/-! ## Results of a pass -/

def Ending.json : Ending → Json
  | completed => str "Completed"
  | cancelled => str "Cancelled"

def Distribution.json (d : Distribution) : Json :=
  obj [("sourcePath", text? d.sourcePath), ("fileName", str d.fileName),
    ("dialect", ofOption Dialect.json d.dialect), ("tier", nat d.tier),
    ("processingOrder", nat d.processingOrder), ("lineNumber", ofOption nat d.lineNumber),
    ("outfit", d.outfit.json), ("outfitEditorId", text? d.outfitEditorId), ("raw", str d.raw),
    ("targeting", str d.targeting), ("chance", chance? d.chance), ("usage", d.used.json)]

def Assignment.json (a : Assignment) : Json :=
  obj [("npc", a.npc.json), ("npcName", str a.npcName), ("npcEditorId", text? a.npcEditorId),
    ("distributions", list Distribution.json a.distributions),
    ("winnerIndex", nat a.winnerIndex), ("hasConflict", bool a.isContested)]

def Resolution.json (r : Resolution) : Json :=
  obj [("status", r.status.json), ("slot", r.slot.json),
    ("results", list Assignment.json r.results)]

def FileSummary.json (f : FileSummary) : Json :=
  obj [("path", str f.path), ("fileName", str f.fileName), ("dialect", f.dialect.json),
    ("processingOrder", nat f.processingOrder), ("ruleCount", nat f.ruleCount),
    ("lineCount", nat f.lineCount), ("encoding", f.encoding.json),
    ("diagnostics", list Diagnostic.json f.diagnostics)]

def ExcludedRule.json (r : ExcludedRule) : Json :=
  obj [("lineNumber", nat r.lineNumber), ("raw", str r.raw)]

def PassSummary.json (s : PassSummary) : Json :=
  obj [("status", s.status.json), ("slot", s.slot.json),
    ("files", list FileSummary.json s.files), ("skipped", list UnreadableFile.json s.skipped),
    ("diagnosticCount", nat s.diagnosticCount),
    ("excludedKeywordRules", list ExcludedRule.json s.excludedKeywordRules),
    ("virtualTagAssignments", nat s.virtualTagAssignments),
    ("conflictCount", nat s.contestedCount), ("assignments", list Assignment.json s.assignments)]

/-! ## Conflicts -/

def Severity.json : Severity → Json
  | none => str "None"
  | softOverlap => str "SoftOverlap"
  | hardConflict => str "HardConflict"

def Conflict.json (c : Conflict) : Json :=
  obj [("npc", c.npc.json), ("npcName", str c.npcName), ("severity", c.severity.json),
    ("existing", c.existing.json), ("proposedLine", nat c.proposedLine),
    ("proposedOutfit", str c.proposedOutfit), ("proposedChance", chance? c.proposedChance),
    ("summary", str c.summary)]

def Verdict.json : Verdict → Json
  | noConflicts => obj [("kind", str "noConflicts")]
  | alreadyResolved => obj [("kind", str "alreadyResolved")]
  | rename suggested => obj [("kind", str "rename"), ("suggested", str suggested)]
  | unresolvable reason => obj [("kind", str "unresolvable"), ("reason", str reason.message)]

def Conflict.Report.json (r : Conflict.Report) : Json :=
  obj [("proposedFileName", str r.proposedFileName), ("dialect", r.dialect.json),
    ("conflicts", list Conflict.json r.conflicts),
    ("hasHardConflict", bool r.hasHardConflict), ("hasSoftOverlap", bool r.hasSoftOverlap),
    ("conflictingFiles", list str r.conflictingFiles), ("verdict", r.verdict.json),
    ("summary", str r.summary)]

def PairConflict.json (c : PairConflict) : Json :=
  obj [("npc", c.npc.json), ("npcName", str c.npcName), ("severity", c.severity.json),
    ("firstLine", nat c.firstLine), ("secondLine", nat c.secondLine), ("summary", str c.summary)]

def Review.json (c : Review) : Json :=
  obj [("rules", list Rule.json c.rules), ("diagnostics", list Diagnostic.json c.diagnostics),
    ("report", c.report.json), ("intraFile", list PairConflict.json c.withinFile)]

/-! ## Settings -/

def Settings.json (s : Settings) : Json :=
  obj [("spidSuffix", str s.spidSuffix), ("skypatcherDir", str s.skyPatcherFolder),
    ("reservedFileName", str s.reservedFileName), ("priorityMarker", str [s.priorityMarker]),
    ("parallel", bool s.parallel)]

end Wardrobe
