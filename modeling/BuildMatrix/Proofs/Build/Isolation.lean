import BuildMatrix.Blueprint
import BuildMatrix.Proofs.Project.FileLists
import Mathlib.Data.List.Find
import Mathlib.Data.List.Forall2

/-! Targets are isolated from each other: what a project says about one target leaves no trace in
the script of another. Two runs are compared that may differ in all that belongs to other targets,
and give the same script or the same error. -/

set_option autoImplicit false

namespace BuildMatrix

/-! ### What belongs to other targets -/

def Configuration.other : Configuration → Configuration
  | .debug => .release
  | .release => .debug

def FlagFamily.isForeign (c : Compiler) : FlagFamily → Bool
  | .msvc => c ≠ .msvc
  | .clang => c ≠ .clang
  | .gcc => c ≠ .gcc
  | .cflags | .midl | .rc | .link | .libs => false

namespace OptionKey

@[simp] def isForeignToConfiguration (c : Configuration) : OptionKey → Bool
  | .flags _ (.only k) | .crt k => k ≠ c
  | .debugSuffix | .debugRc | .natvis => c = .release
  | .optimize => c = .debug
  | _ => false

@[simp] def isForeignToBitness (b : Bitness) : OptionKey → Bool
  | .bitSuffix a | .targetDir a => a ≠ b
  | .libDirs32 | .stdcall => b = .bits64
  | _ => false

@[simp] def isForeignToCompiler (c : Compiler) : OptionKey → Bool
  | .flags family _ => family.isForeign c
  | .msLinker | .msRc => c ≠ .clang
  | .crt _ | .stdcall | .natvis => c = .gcc
  | _ => false

/-- Options that select targets, or are about the makefile only. -/
@[simp] def isOutsideScripts : OptionKey → Bool
  | .compilers | .build _ | .makefile => true
  | _ => false

/-- Whether an option is none of the business of a target. -/
@[simp] def isForeign (t : Target) (k : OptionKey) : Bool :=
  k.isForeignToConfiguration t.configuration || k.isForeignToBitness t.bitness ||
    k.isForeignToCompiler t.compiler || k.isOutsideScripts

end OptionKey

/-- Two projects with the same values for all options of a target. What `optimize` says may differ
for a debug target, but not whether it says anything, since generation needs it. -/
structure Project.SameOptions (t : Target) (p q : Project) : Prop where
  value : ∀ k, k.isForeign t = false → p.value? k = q.value? k
  optimize : p.hasValue .optimize = q.hasValue .optimize

structure Library.SameFor (t : Target) (l m : Library) : Prop where
  dir : l.dir = m.dir
  options : l.project.SameOptions t m.project

/-- Two blueprints that differ only in what belongs to other targets. -/
structure Blueprint.SameFor (t : Target) (b c : Blueprint) : Prop where
  buildDir : b.buildDir = c.buildDir
  resourceFiles : b.resourceFiles = c.resourceFiles
  libraries : List.Forall₂ (Library.SameFor t) b.libraries c.libraries
  environment : ∀ v ∈ Environment.names, v ≠ Environment.specific t.configuration.other →
    b.environment.value? v = c.environment.value? v
  options : b.project.SameOptions t c.project
  files : b.project.files = c.project.files
  debugFiles : t.configuration = .debug → b.project.debugFiles = c.project.debugFiles
  rcFile : b.project.rcFile = c.project.rcFile
  idlFiles : b.project.idlFiles = c.project.idlFiles

/-! ### Options -/

namespace Project.SameOptions

variable {t : Target} {p q : Project} {k : OptionKey}

theorem refl (t : Target) (p : Project) : p.SameOptions t p := ⟨fun _ _ => rfl, rfl⟩

theorem trans {r : Project} (first : p.SameOptions t q) (second : q.SameOptions t r) :
    p.SameOptions t r :=
  ⟨fun k own => (first.value k own).trans (second.value k own),
    first.optimize.trans second.optimize⟩

theorem value?_withSetting {l : OptionKey} (p : Project) (ne : l ≠ k) (s : Option Setting) :
    (p.withSetting k s).value? l = p.value? l := by
  rw [Project.value?, Project.value?, Project.withSetting]
  dsimp only
  rw [if_neg ne]

theorem value_withSetting (foreign : k.isForeign t = true) (s : Option Setting) :
    ∀ l, l.isForeign t = false → p.value? l = (p.withSetting k s).value? l := by
  intro l own
  refine (value?_withSetting p ?_ s).symm
  -- an option of the target is not the one that was changed
  rintro rfl
  exact absurd foreign (by rw [own]; decide)

/-- An option of other targets may be set, changed or cleared. -/
theorem withSetting (foreign : k.isForeign t = true) (other : k ≠ .optimize)
    (s : Option Setting) : p.SameOptions t (p.withSetting k s) := by
  refine ⟨value_withSetting foreign s, ?_⟩
  rw [Project.hasValue, Project.hasValue, Project.filled?, Project.filled?,
    value?_withSetting p other.symm]

/-- For a debug target one value of `optimize` is as good as another. -/
theorem withSetting_optimize (debug : t.configuration = .debug)
    (before : p.hasValue .optimize = true) {s : Setting} (filled : s.value ≠ []) :
    p.SameOptions t (p.withSetting .optimize (some s)) := by
  refine ⟨value_withSetting (by simp [debug]) (some s), ?_⟩
  rw [before, Project.hasValue, Project.filled?, Project.value?, Project.withSetting]
  simp [filled]

/-- The two sides of a choice by compiler may be compared where they are taken. -/
theorem ite_isClLike {α : Type} {c : Compiler} {x y x' y' : α} (cl : c ≠ .gcc → x = y)
    (gcc : x' = y') : (if c.isClLike then x else x') = if c.isClLike then y else y' := by
  cases c with
  | gcc => exact gcc
  | msvc => exact cl (by decide)
  | clang => exact cl (by decide)

variable (h : p.SameOptions t q)
include h

theorem valueD (own : k.isForeign t = false) : p.valueD k = q.valueD k := by
  rw [Project.valueD, Project.valueD, h.value k own]

theorem filled (own : k.isForeign t = false) : p.filled? k = q.filled? k := by
  rw [Project.filled?, Project.filled?, h.value k own]

theorem hasValue (own : k.isForeign t = false) : p.hasValue k = q.hasValue k := by
  rw [Project.hasValue, Project.hasValue, h.filled own]

theorem isOn (own : k.isForeign t = false) : p.isOn k = q.isOn k := by
  rw [Project.isOn, Project.isOn, h.value k own]

theorem holds (own : k.isForeign t = false) (v : Text) : p.holds k v = q.holds k v := by
  rw [Project.holds, Project.holds, h.value k own]

theorem items (own : k.isForeign t = false) : p.items k = q.items k := by
  rw [Project.items, Project.items, h.valueD own]

theorem given (own : k.isForeign t = false) : Flags.given p k = Flags.given q k := by
  rw [Flags.given, Flags.given, h.value k own]

theorem each (own : k.isForeign t = false) (lead : Text) :
    Flags.each p k lead = Flags.each q k lead := by
  rw [Flags.each, Flags.each, h.items own]

theorem layered {family : FlagFamily} (own : family.isForeign t.compiler = false) :
    Flags.layered p family t.configuration = Flags.layered q family t.configuration := by
  rw [Flags.layered, Flags.layered, h.given (by simp [own]), h.given (by simp [own])]

theorem name : p.name = q.name := h.valueD (by simp)

theorem exeType : p.exeType? = q.exeType? := by
  rw [Project.exeType?, Project.exeType?, h.value _ (by simp)]

/-- The error is the same as well: a value is missing in both projects or in none. -/
theorem check : Blueprint.check p = Blueprint.check q := by
  have missing (k : OptionKey) :
      (k.isRequired && !p.hasValue k) = (k.isRequired && !q.hasValue k) := by
    cases k with
    | project => rw [h.hasValue (by simp)]
    | exeType => rw [h.hasValue (by simp)]
    | warn => rw [h.hasValue (by simp)]
    | optimize => rw [h.optimize]
    | _ => rfl
  rw [Blueprint.check, Blueprint.check, List.find?_congr fun k _ => missing k, h.exeType,
    h.valueD (by simp)]

/-! ### Flags -/

theorem clConfiguration (cl : t.compiler ≠ .gcc) :
    Flags.clConfiguration p t.configuration = Flags.clConfiguration q t.configuration := by
  cases built : t.configuration with
  | debug => rw [Flags.clConfiguration, Flags.clConfiguration, h.holds (by simp [built, cl])]
  | release =>
    rw [Flags.clConfiguration, Flags.clConfiguration, h.holds (by simp [built]),
      h.holds (by simp [built, cl])]

theorem gccConfiguration :
    Flags.gccConfiguration p t.configuration = Flags.gccConfiguration q t.configuration := by
  cases built : t.configuration with
  | debug => rfl
  | release => rw [Flags.gccConfiguration, Flags.gccConfiguration, h.holds (by simp [built])]

theorem clCompile (cl : t.compiler ≠ .gcc) (kind : ExeType) :
    Flags.clCompile p t kind = Flags.clCompile q t kind := by
  have convention : (t.bitness = .bits32 && p.isOn .stdcall) =
      (t.bitness = .bits32 && q.isOn .stdcall) := by
    cases bits : t.bitness with
    | bits64 => rfl
    | bits32 => rw [h.isOn (by simp [bits, cl])]
  rw [Flags.clCompile, Flags.clCompile, h.valueD (by simp), h.isOn (k := .permissive) (by simp),
    convention, h.clConfiguration cl]

theorem gccCompile : Flags.gccCompile p t = Flags.gccCompile q t := by
  rw [Flags.gccCompile, Flags.gccCompile, h.valueD (by simp), h.isOn (by simp), h.gccConfiguration]

theorem compile {e f : Environment} (kind : ExeType)
    (added : e.flags t.configuration = f.flags t.configuration) :
    Flags.compile p t kind e = Flags.compile q t kind f := by
  have single : (if t.compiler.isClLike then Flags.clCompile p t kind else Flags.gccCompile p t) =
      if t.compiler.isClLike then Flags.clCompile q t kind else Flags.gccCompile q t :=
    ite_isClLike (fun cl => h.clCompile cl kind) h.gccCompile
  have family : (Flags.ownFamily t.compiler).isForeign t.compiler = false := by
    cases t.compiler <;> rfl
  rw [Flags.compile, Flags.compile, single, h.each (by simp), h.layered rfl, h.layered family,
    added]

theorem platformTool {demand : OptionKey}
    (own : t.compiler = .clang → demand.isForeign t = false) :
    Flags.usesPlatformTool p demand t.compiler = Flags.usesPlatformTool q demand t.compiler := by
  cases built : t.compiler with
  | msvc => rfl
  | clang => exact h.isOn (own built)
  | gcc => rfl

theorem platformResources :
    Flags.usesPlatformResources p t.compiler = Flags.usesPlatformResources q t.compiler :=
  h.platformTool fun clang => by simp [clang]

theorem platformLinker :
    Flags.usesPlatformLinker p t.compiler = Flags.usesPlatformLinker q t.compiler :=
  h.platformTool fun clang => by simp [clang]

theorem resources : Flags.resources p t = Flags.resources q t := by
  have defined : (t.configuration = .debug && p.isOn .debugRc) =
      (t.configuration = .debug && q.isOn .debugRc) := by
    cases built : t.configuration with
    | debug => rw [h.isOn (by simp [built])]
    | release => rfl
  rw [Flags.resources, Flags.resources, h.platformResources, h.layered rfl, defined]

theorem interfaces : Flags.interfaces p t = Flags.interfaces q t := by
  rw [Flags.interfaces, Flags.interfaces, h.layered rfl]

theorem libDirsKey : Flags.libDirsKey p t.bitness = Flags.libDirsKey q t.bitness := by
  cases bits : t.bitness with
  | bits64 => rfl
  | bits32 => rw [Flags.libDirsKey, Flags.libDirsKey, h.hasValue (by simp [bits])]

-- Whichever key holds the directories, it is one of the target.
omit h in
theorem isForeign_libDirsKey (p : Project) (t : Target) :
    (Flags.libDirsKey p t.bitness).isForeign t = false := by
  unfold Flags.libDirsKey
  split
  · rename_i chosen
    simp [chosen.1]
  · simp

theorem libDirs (lead : Text) :
    Flags.each p (Flags.libDirsKey p t.bitness) lead =
      Flags.each q (Flags.libDirsKey q t.bitness) lead := by
  rw [← h.libDirsKey]
  exact h.each (isForeign_libDirsKey p t) lead

theorem clLink (cl : t.compiler ≠ .gcc) (kind : ExeType) :
    Flags.clLink p t kind = Flags.clLink q t kind := by
  have configuration : Flags.clLinkConfiguration p t.configuration =
      Flags.clLinkConfiguration q t.configuration := by
    cases built : t.configuration with
    | debug =>
      rw [Flags.clLinkConfiguration, Flags.clLinkConfiguration, h.filled (by simp [built, cl])]
    | release => rfl
  rw [Flags.clLink, Flags.clLink, configuration, h.libDirs]

theorem link (kind : ExeType) : Flags.link p t kind = Flags.link q t kind := by
  have single : (if t.compiler.isClLike then Flags.clLink p t kind else Flags.gccLink p t kind) =
      if t.compiler.isClLike then Flags.clLink q t kind else Flags.gccLink q t kind := by
    apply ite_isClLike
    · exact fun cl => h.clLink cl kind
    · rw [Flags.gccLink, Flags.gccLink, h.libDirs]
  rw [Flags.link, Flags.link, single, h.layered rfl]

theorem linked : Flags.libraries p t.configuration = Flags.libraries q t.configuration := by
  rw [Flags.libraries, Flags.libraries, h.each (by simp [FlagFamily.isForeign]),
    h.each (by simp [FlagFamily.isForeign])]

/-! ### File names -/

theorem binaryKind : p.binaryKind = q.binaryKind := by
  rw [Project.binaryKind, Project.binaryKind, h.exeType]

theorem binaryStem : p.binaryStem t = q.binaryStem t := by
  have suffix : (t.configuration = .debug ∧ p.isOn .debugSuffix) =
      (t.configuration = .debug ∧ q.isOn .debugSuffix) := by
    cases built : t.configuration with
    | debug => rw [h.isOn (by simp [built])]
    | release => simp
  simp only [Project.binaryStem, h.name, h.isOn (k := .bitSuffix t.bitness) (by simp), suffix]

theorem binaryPath : p.binaryPath t = q.binaryPath t := by
  have file : p.binaryFile t = q.binaryFile t := by
    rw [Project.binaryFile, Project.binaryFile, h.binaryStem, h.binaryKind]
  have dir : p.usualBinaryDir t.bitness = q.usualBinaryDir t.bitness := by
    unfold Project.usualBinaryDir
    rw [h.binaryKind]
  rw [Project.binaryPath, Project.binaryPath, h.filled (by simp), file, dir]

theorem pchSource (files : p.files = q.files) : p.pchSource? = q.pchSource? := by
  have header : p.pchHeader? = q.pchHeader? := h.filled (by simp)
  rw [Project.pchSource?, Project.pchSource?, header, h.filled (by simp), files]

end Project.SameOptions

/-! ### Scripts -/

theorem Library.SameFor.binaryPath {t : Target} {l m : Library} (h : l.SameFor t m) :
    l.binaryPath t = m.binaryPath t := by
  rw [Library.binaryPath, Library.binaryPath, h.dir, h.options.binaryPath]

theorem Environment.mem_order {k : Configuration} {v : Text} (member : v ∈ order k) :
    v ∈ names ∧ v ≠ specific k.other := by
  revert v
  cases k <;> decide

namespace Blueprint.SameFor

variable {t : Target} {b c : Blueprint} (h : b.SameFor t c)
include h

theorem flags : b.environment.flags t.configuration = c.environment.flags t.configuration := by
  have same : ∀ v ∈ Environment.order t.configuration,
      b.environment.value? v = c.environment.value? v := by
    intro v member
    obtain ⟨known, own⟩ := Environment.mem_order member
    exact h.environment v known own
  rw [Environment.flags, Environment.flags, List.filterMap_congr same]

theorem pch : b.pch? = c.pch? := by
  have header : b.project.pchHeader? = c.project.pchHeader? := h.options.filled (by simp)
  rw [Blueprint.pch?, Blueprint.pch?, Ninja.precompiledHeader?, Ninja.precompiledHeader?, header,
    h.options.pchSource h.files]

theorem scriptDir : b.scriptDir = c.scriptDir := by
  rw [Blueprint.scriptDir, Blueprint.scriptDir, h.buildDir]

theorem settings : b.settings t = c.settings t := by
  rw [Blueprint.settings, Blueprint.settings, h.options.name, h.scriptDir]

theorem compileRules (kind : ExeType) : b.compileRules t kind = c.compileRules t kind := by
  have flags : b.compileFlags t kind = c.compileFlags t kind := h.options.compile kind h.flags
  have arguments (role : Ninja.PchRole) (header : Text) :
      Ninja.pchArguments b.project role header = Ninja.pchArguments c.project role header := by
    rw [Ninja.pchArguments, Ninja.pchArguments, h.options.name]
  simp only [Blueprint.compileRules, Ninja.compilePchRule, Ninja.compileRule, flags, h.pch,
    arguments]

theorem resources : b.resources t = c.resources t := by
  have rule : Ninja.rcRule b.project t = Ninja.rcRule c.project t := by
    rw [Ninja.rcRule, Ninja.rcRule, h.options.resources, h.options.platformResources]
  have edge (script : Text) : b.resourceEdge t script = c.resourceEdge t script := by
    rw [Blueprint.resourceEdge, Blueprint.resourceEdge, h.resourceFiles]
  simp only [Blueprint.resources, h.rcFile, rule, edge]

theorem interfaces : b.interfaces t = c.interfaces t := by
  have rule : Ninja.midlRule b.project t = Ninja.midlRule c.project t := by
    rw [Ninja.midlRule, Ninja.midlRule, h.options.interfaces]
  rw [Blueprint.interfaces, Blueprint.interfaces, h.idlFiles, rule]

/-- Files for debug builds matter to debug targets only. -/
theorem sources : b.sources t = c.sources t := by
  have files : b.project.sourceFiles t.configuration = c.project.sourceFiles t.configuration := by
    cases built : t.configuration with
    | debug => rw [Project.sourceFiles, Project.sourceFiles, h.files, h.debugFiles built]
    | release => rw [Project.sourceFiles, Project.sourceFiles, h.files]
  rw [Blueprint.sources, Blueprint.sources, files, h.pch]

theorem pchObject : b.pchObject? t = c.pchObject? t := by
  rw [Blueprint.pchObject?, Blueprint.pchObject?, h.pch]

theorem objects : b.objects t = c.objects t := by
  rw [Blueprint.objects, Blueprint.objects, h.sources, h.pchObject]

theorem objectEdges : b.objectEdges t = c.objectEdges t := by
  have headers : b.interfaceHeaders = c.interfaceHeaders := by
    rw [Blueprint.interfaceHeaders, Blueprint.interfaceHeaders, h.idlFiles]
  have pch (x : Ninja.PrecompiledHeader) : b.pchEdge t x = c.pchEdge t x := by
    rw [Blueprint.pchEdge, Blueprint.pchEdge, headers]
  have compile (f : Text) : b.compileEdge t f = c.compileEdge t f := by
    simp only [Blueprint.compileEdge, Blueprint.sourceDependencies, h.pchObject, headers]
  simp only [Blueprint.objectEdges, h.pch, h.sources, pch, compile]

/-- What is made of all libraries is the same if it is for those that say the same. -/
theorem map_libraries {α : Type} {f g : Library → α}
    (same : ∀ l m : Library, l.SameFor t m → f l = g m) :
    b.libraries.map f = c.libraries.map g := by
  rw [← List.forall₂_eq_eq_eq, List.forall₂_map_left_iff, List.forall₂_map_right_iff]
  exact h.libraries.imp same

theorem libraryOutputs : b.libraryOutputs t = c.libraryOutputs t := by
  apply h.map_libraries
  intro l m same
  rw [Blueprint.libraryOutput, Blueprint.libraryOutput, same.binaryPath]

theorem libraryParagraphs : b.libraryParagraphs t = c.libraryParagraphs t := by
  have edges : b.libraries.map (fun l => [Ninja.Statement.edge (b.libraryEdge t l)]) =
      c.libraries.map fun l => [Ninja.Statement.edge (c.libraryEdge t l)] := by
    apply h.map_libraries
    intro l m same
    simp only [Blueprint.libraryEdge, Blueprint.libraryOutput, Blueprint.scriptPath, h.scriptDir,
      same.dir, same.binaryPath]
  -- there are libraries on both sides or on none
  have related := h.libraries
  rw [Blueprint.libraryParagraphs, Blueprint.libraryParagraphs]
  revert edges
  generalize b.libraries = ls at related ⊢
  generalize c.libraries = ms at related ⊢
  cases related with
  | nil => exact fun _ => rfl
  | cons _ _ =>
    intro edges
    exact congrArg ([.rule Ninja.buildlibRule] :: [.edge alwaysEdge] :: ·) edges

theorem linkedLibraries : b.linkedLibraries t = c.linkedLibraries t := by
  have arguments : b.libraries.map (fun l => Flags.argument (l.binaryPath t)) =
      c.libraries.map fun l => Flags.argument (l.binaryPath t) :=
    h.map_libraries fun l m same => by rw [same.binaryPath]
  rw [Blueprint.linkedLibraries, Blueprint.linkedLibraries, h.options.linked, arguments]

theorem binary : b.binary t = c.binary t := by
  rw [Blueprint.binary, Blueprint.binary, h.options.binaryPath]

theorem final (kind : ExeType) : b.final t kind = c.final t kind := by
  have archiveRule : Ninja.libRule b.project t = Ninja.libRule c.project t := by
    rw [Ninja.libRule, Ninja.libRule, h.options.platformLinker]
  have archive : b.archiveEdge t = c.archiveEdge t := by
    rw [Blueprint.archiveEdge, Blueprint.archiveEdge, h.binary, h.objects, h.libraryOutputs]
  have linkRule : Ninja.linkRule b.project t kind = Ninja.linkRule c.project t kind := by
    rw [Ninja.linkRule, Ninja.linkRule, h.options.link, h.options.platformLinker]
  have resource : b.resourceOutput? t = c.resourceOutput? t := by
    rw [Blueprint.resourceOutput?, Blueprint.resourceOutput?, h.rcFile]
  have link : b.linkEdge t = c.linkEdge t := by
    rw [Blueprint.linkEdge, Blueprint.linkEdge, h.binary, h.objects, resource, h.libraryOutputs,
      h.linkedLibraries]
  cases kind with
  | lib => rw [Blueprint.final, Blueprint.final, archiveRule, archive]
  | _ => simp only [Blueprint.final, linkRule, link]

theorem paragraphs (kind : ExeType) : b.paragraphs t kind = c.paragraphs t kind := by
  rw [Blueprint.paragraphs, Blueprint.paragraphs, h.settings, h.compileRules, h.resources,
    h.interfaces, h.objectEdges, h.libraryParagraphs, h.final]

omit h in
theorem refl (t : Target) (b : Blueprint) : b.SameFor t b where
  buildDir := rfl
  resourceFiles := rfl
  libraries := List.forall₂_same.2 fun l _ => ⟨rfl, .refl t l.project⟩
  environment := fun _ _ _ => rfl
  options := .refl t b.project
  files := rfl
  debugFiles := fun _ => rfl
  rcFile := rfl
  idlFiles := rfl

theorem addDebugFiles (release : t.configuration = .release) (files : List Text) :
    b.SameFor t { c with project := c.project.addPaths .debugOnly files } := by
  obtain ⟨fs, added⟩ := c.project.exists_addPaths_debugOnly files
  rw [added]
  refine { h with debugFiles := ?_, options := ⟨h.options.value, h.options.optimize⟩ }
  intro debug
  rw [release] at debug
  cases debug

end Blueprint.SameFor

namespace Blueprint

/-- Two runs for one target, with settings that differ in what belongs to other targets only, end
with the same script or with the same error. Files that are added later for debug builds change
nothing for a release target. -/
theorem script_eq_of_sameFor {t : Target} {b c : Blueprint} (h : b.SameFor t c) :
    b.script t = c.script t ∧
      (t.configuration = .release → ∀ files : List Text,
        b.script t = { c with project := c.project.addPaths .debugOnly files }.script t) := by
  have same {d : Blueprint} (h : b.SameFor t d) : b.script t = d.script t := by
    have planned : b.plan t = d.plan t := by
      rw [plan, plan, h.options.check, funext h.paragraphs]
    rw [script, script, planned]
  constructor
  · exact same h
  · intro release files
    exact same (h.addDebugFiles release files)

/-- A program with one source file. -/
def plainApp : Project :=
  { Project.bare projectFileName with
    settings := fun k => if k = .project then some ⟨"app", none⟩ else none
    files := ["main.cpp"] }

/-- The same program, with a say in builds for other compilers, with 32 bits or for debugging. -/
def variedApp : Project :=
  ((plainApp.set (.flags .gcc .common) "-pedantic").set (.bitSuffix .bits32) "true").set
    .debugRc "true"

def loggingVariables : Environment := ⟨fun v => if v = "CFLAGSD" then some "-DLOG" else none⟩

theorem script_eq_of_sameFor_variedApp :
    let t : Target := ⟨.clang, .bits64, .release⟩
    let b : Blueprint := ⟨plainApp, "build", .empty, [], []⟩
    let c : Blueprint := ⟨variedApp, "build", loggingVariables, [], []⟩
    b.SameFor t c ∧ b.script t = c.script t ∧
      b.script t = { c with project := c.project.addPaths .debugOnly ["log.cpp"] }.script t := by
  intro t b c
  have h : b.SameFor t c :=
    { buildDir := rfl
      resourceFiles := rfl
      libraries := .nil
      environment := by decide
      options := ((Project.SameOptions.withSetting rfl (by decide) _).trans
        (.withSetting rfl (by decide) _)).trans (.withSetting rfl (by decide) _)
      files := rfl
      debugFiles := fun _ => rfl
      rcFile := rfl
      idlFiles := rfl }
  obtain ⟨same, extended⟩ := script_eq_of_sameFor h
  exact ⟨h, same, extended rfl ["log.cpp"]⟩

end Blueprint

end BuildMatrix
