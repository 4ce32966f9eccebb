import Dnp3Bridge.Config.Loader
import Dnp3Bridge.Outstation.QualityChange
import Dnp3Bridge.Outstation.Violations

/-!
# Misspelt modes and classes

The command mode and the classes that may be reported unsolicited are given by strings. The strings of
the point database are checked at startup; these are not: a mode that is not the name of one is taken
for direct operate, and a class that is not the name of one is dropped.
-/

namespace Dnp3Bridge.Outstation
open Config Json Errors

/-- The documented names of the command modes. -/
def commandModes : List String :=
  ["direct_operate", "select_before_operate"]

/-- Whether a class is in the mask. -/
def ClassField.enables (mask : ClassField) : PointClass → Bool
  | .class0 => mask.class0
  | .class1 => mask.class1
  | .class2 => mask.class2
  | .class3 => mask.class3

/-- The names in a configuration mean something, and the outstation that `start` creates enables the
classes that are named. -/
structure NamesHeeded (cfg : AppConfig) : Prop where
  mode : cfg.commandMode ∈ commandModes
  classes : ∀ s ∈ cfg.unsolicited.classMask, Known PointClass s
  enabled : ∀ m o, m.cfg = cfg → (OutstationManager.start m).outstation = some o →
    ∀ c, o.unsolClassMask.enables c = true ↔
      ∃ s ∈ cfg.unsolicited.classMask, (s, c) ∈ Named.nameMap (E := PointClass)

/-- The command mode that the environment gives, or else the document. -/
def givenMode (h : Host) (path : Option String) : Option String :=
  match h.getenv "DNP3_BRIDGE_COMMAND_MODE" with
  | some s => some s
  | none =>
    match (h.document path).find "command_mode" with
    | some (.string s) => some s
    | _ => none

/-- The class mask that the document gives. -/
def givenMask (h : Host) (path : Option String) : Option Json :=
  ((h.document path).find "unsolicited").bind fun us => us.find "class_mask"

/-- The command mode and the classes of the class mask, where given, are spelt like one. -/
structure WellSpelt (h : Host) (path : Option String) : Prop where
  mode : ∀ s, givenMode h path = some s → s ∈ commandModes
  classes : ∀ mask, givenMask h path = some mask → ∀ s, .string s ∈ mask.items → Known PointClass s

/-- The mask has the classes that are in the list. -/
lemma buildClassMask_eq (mask : List String) : buildClassMask mask =
    ⟨decide ("class0" ∈ mask), decide ("class1" ∈ mask), decide ("class2" ∈ mask),
      decide ("class3" ∈ mask)⟩ := by
  induction mask using List.reverseRecOn with
  | nil => rfl
  | append_singleton mask s ih =>
    rw [buildClassMask, List.foldl_append, ← buildClassMask, ih, List.foldl_cons, List.foldl_nil]
    split_ifs with e0 e1 e2 e3
    · simp [e0]
    · simp [e1]
    · simp [e2]
    · simp [e3]
    · simp [Ne.symm e0, Ne.symm e1, Ne.symm e2, Ne.symm e3]

/-- A class is enabled exactly if the list names it. -/
lemma enables_iff (mask : List String) (c : PointClass) :
    (buildClassMask mask).enables c = true ↔
      ∃ s ∈ mask, (s, c) ∈ Named.nameMap (E := PointClass) := by
  rw [buildClassMask_eq]
  cases c <;> simp [ClassField.enables, Named.nameMap]

/-- The mode of a loaded configuration is the one that is given, or the default one. -/
lemma load_mode {h path cfg} (loaded : load h path = .ok (.ok cfg)) :
    cfg.commandMode = (givenMode h path).getD "direct_operate" := by
  obtain ⟨cfg0, read, rfl⟩ := load_inv loaded
  obtain ⟨mode, -, -⟩ := readDocument_inv read
  show (h.getenv "DNP3_BRIDGE_COMMAND_MODE").getD cfg0.commandMode = _
  rw [givenMode]
  cases h.getenv "DNP3_BRIDGE_COMMAND_MODE" with
  | some s => rfl
  | none =>
    rw [Json.read] at mode
    cases found : (h.document path).find "command_mode" with
    | none =>
      rw [found] at mode
      exact (Except.ok.inj mode).symm
    | some v =>
      rw [found] at mode
      cases v with
      | string s => exact (Except.ok.inj mode).symm
      | _ => cases mode

/-- The strings of a list of documents that are all strings. -/
lemma mem_getString {l : List Json} {l'} (e : l.mapM getString = .ok l') (s : String) :
    s ∈ l' ↔ .string s ∈ l := by
  have all := mapM_ok e
  clear e
  induction all with
  | nil => exact iff_of_false List.not_mem_nil List.not_mem_nil
  | cons read _ ih =>
    rename_i v t _ _ _
    have head : s = t ↔ .string s = v := by
      cases v with
      | string t =>
        cases read
        exact ⟨congrArg Json.string, Json.string.inj⟩
      | _ => cases read
    rw [List.mem_cons, List.mem_cons]
    exact or_congr head ih

/-- The class mask of a loaded configuration is the one that is given, or the default one. -/
lemma load_classMask {h path cfg} (loaded : load h path = .ok (.ok cfg)) :
    (givenMask h path = none ∧ cfg.unsolicited.classMask = ["class1", "class2"]) ∨
      ∃ mask, givenMask h path = some mask ∧
        ∀ s, s ∈ cfg.unsolicited.classMask ↔ .string s ∈ mask.items := by
  obtain ⟨cfg0, read, rfl⟩ := load_inv loaded
  obtain ⟨-, unsolicited, -⟩ := readDocument_inv read
  have classMask : (overlay h cfg0).unsolicited = cfg0.unsolicited := rfl
  rw [classMask, givenMask]
  obtain ⟨absent, kept⟩ | ⟨us, found, parsed⟩ := read_cases unsolicited
  · rw [absent, kept]
    exact .inl ⟨rfl, rfl⟩
  · obtain ⟨_, -, parsed⟩ := bind_ok parsed
    obtain ⟨mask, read, parsed⟩ := bind_ok parsed
    rw [found, Option.bind_some, ← Except.ok.inj parsed]
    obtain ⟨absent, kept⟩ | ⟨v, given, strings⟩ := read_cases read
    · exact .inl ⟨absent, kept⟩
    · exact .inr ⟨v, given, mem_getString strings⟩

/-- In a configuration that has been loaded the names are heeded exactly if the environment and the
document spell them right. -/
theorem namesHeeded_iff {h path cfg} (loaded : load h path = .ok (.ok cfg)) :
    NamesHeeded cfg ↔ WellSpelt h path := by
  have mode : cfg.commandMode ∈ commandModes ↔ ∀ s, givenMode h path = some s → s ∈ commandModes := by
    rw [load_mode loaded]
    cases givenMode h path with
    | none => exact iff_of_true (by decide) nofun
    | some s => exact ⟨fun known t e => Option.some.inj e ▸ known, fun all => all s rfl⟩
  have classes : (∀ s ∈ cfg.unsolicited.classMask, Known PointClass s) ↔
      ∀ mask, givenMask h path = some mask → ∀ s, .string s ∈ mask.items → Known PointClass s := by
    obtain ⟨absent, builtIn⟩ | ⟨mask, given, same⟩ := load_classMask loaded
    · rw [absent, builtIn]
      exact iff_of_true (by decide) nofun
    · rw [given]
      constructor
      · intro known mask' e s mem
        cases e
        exact known s ((same s).mpr mem)
      · intro known s mem
        exact known mask rfl s ((same s).mp mem)
  constructor
  · rintro ⟨known, all, -⟩
    exact ⟨mode.mp known, classes.mp all⟩
  · rintro ⟨known, all⟩
    refine ⟨mode.mpr known, classes.mpr all, ?_⟩
    rintro m o rfl started c
    cases started
    exact enables_iff _ c

/-- A file with both names spelt right. -/
def wellSpeltFile : Host :=
  hostOf "config.json"
    ("\x7b\"command_mode\": \"select_before_operate\", " ++
      "\"unsolicited\": \x7b\"class_mask\": [\"class3\"]\x7d\x7d")
    (.object [("command_mode", .string "select_before_operate"),
      ("unsolicited", .object [("class_mask", .array [.string "class3"])])])

/-- A file with a letter missing in the mode and in a class. -/
def misspeltFile : Host :=
  hostOf "config.json"
    ("\x7b\"command_mode\": \"select_before_operte\", " ++
      "\"unsolicited\": \x7b\"class_mask\": [\"class1\", \"clas2\"]\x7d\x7d")
    (.object [("command_mode", .string "select_before_operte"),
      ("unsolicited", .object [("class_mask", .array [.string "class1", .string "clas2"])])])

def wellSpeltConfig : AppConfig where
  commandMode := "select_before_operate"
  unsolicited := { classMask := ["class3"] }

def misspeltConfig : AppConfig where
  commandMode := "select_before_operte"
  unsolicited := { classMask := ["class1", "clas2"] }

/-- The names of this file are all heeded. -/
theorem wellSpeltFile_heeded : NamesHeeded wellSpeltConfig := by
  have loaded : load wellSpeltFile (some "config.json") = .ok (.ok wellSpeltConfig) := rfl
  refine (namesHeeded_iff loaded).mpr ⟨?_, ?_⟩
  · intro s e
    cases e
    decide
  · intro mask e s mem
    cases e
    cases List.mem_singleton.mp mem
    decide

/-- The misspelt file is accepted; the outstation operates directly and reports no class 2. -/
theorem misspeltFile_accepted :
    load misspeltFile (some "config.json") = .ok (.ok misspeltConfig) ∧
      validatePointDatabase misspeltConfig.pointDatabase = .ok () ∧
      (∃ o, (OutstationManager.create .documented misspeltConfig).start.outstation = some o ∧
        o.commandMode = .directOperate ∧ o.unsolClassMask = ⟨false, true, false, false⟩) ∧
      ¬ NamesHeeded misspeltConfig := by
  refine ⟨rfl, rfl, ⟨_, rfl, rfl, rfl⟩, fun heeded => ?_⟩
  exact absurd heeded.mode (by decide)

end Dnp3Bridge.Outstation
