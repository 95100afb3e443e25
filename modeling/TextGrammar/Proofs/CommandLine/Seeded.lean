import TextGrammar.CommandLine.Report
import TextGrammar.Proofs.Expansion.Worlds
import TextGrammar.Proofs.History.Sequential
import TextGrammar.Proofs.Loading.Seeds
import TextGrammar.Yaml.Reader

/-!
Rendering from a seed. Main statement: the seed of the command determines what is printed, whatever
the seed of the document and the generator at the beginning, up to the draws of functions, which
come from the world and not from the engine.
-/

namespace TextGrammar

open Effect

variable {ρ ω : Type} [Draws ρ] [Seeded ρ] [World ω]

namespace Report

/-- The session that a render begins with: an engine whose generator may be any, and the functions
that every registry begins with. -/
def start (generator : ρ) (world : ω) : Session ρ ω :=
  .new { (Engine.new : Engine ρ ω) with generator } world

/-- The rules that lines resolve, up to the line that fails. -/
def linesLog (text : String) (preserve : Bool) : Nat → Session ρ ω → List (Resolution ρ ω)
  | 0, _ => []
  | count + 1, session =>
    session.resolutions text preserve ++
      match session.act (.generate text preserve) with
      | (⟨.ok _, _⟩, later) => linesLog text preserve count later
      | (⟨.error _, _⟩, _) => []

/-- The rules that a render resolves. -/
def renderLog (yaml : Document.Reader) (session : Session ρ ω) (text : String)
    (options : RenderOptions) (file : Document.File) : List (Resolution ρ ω) :=
  match load yaml session options.keywords file with
  | .error _ => []
  | .ok session =>
    let session := match options.seed with
      | some seed => (session.act (.setSeed seed)).2
      | none => session
    linesLog text options.preserve (max options.count 1).toNat session

/-! ### Lines in two worlds -/

variable {related : ω → ω → Prop} {session session' : Session ρ ω}

theorem generate_alike (engine : session.engine = session'.engine)
    (world : related session.world session'.world) {text : String} {preserve : Bool}
    (respects : ∀ entry ∈ session.resolutions text preserve, entry.rule.Respects related) :
    (session.act (.generate text preserve)).1 = (session'.act (.generate text preserve)).1 ∧
      (session.act (.generate text preserve)).2.engine =
        (session'.act (.generate text preserve)).2.engine ∧
      related (session.act (.generate text preserve)).2.world
        (session'.act (.generate text preserve)).2.world := by
  obtain ⟨same, kept⟩ := Expansion.steady_generate text preserve
    (⟨session.engine, session.world, []⟩ : Run ρ ω) ⟨session'.engine, session'.world, []⟩
    ⟨engine, rfl, world⟩ respects
  rcases given : (TextGrammar.generate text preserve : Expansion ρ ω String)
    ⟨session.engine, session.world, []⟩ with ⟨outcome, later⟩
  rcases given' : (TextGrammar.generate text preserve : Expansion ρ ω String)
    ⟨session'.engine, session'.world, []⟩ with ⟨outcome', later'⟩
  rw [given, given'] at same kept
  obtain ⟨engine, notes, world⟩ := kept
  obtain rfl : outcome = outcome' := same
  simp only at engine notes world
  simpa only [Session.act, Session.generate, given, given', notes, engine, true_and] using world

/-- If the rules that they resolve respect a relation of worlds, lines are the same in related
worlds. -/
theorem lines_alike {text : String} {preserve : Bool} {count : Nat} {printed : String}
    (engine : session.engine = session'.engine) (world : related session.world session'.world)
    (respects : ∀ entry ∈ linesLog text preserve count session, entry.rule.Respects related) :
    lines text preserve count session printed = lines text preserve count session' printed := by
  induction count generalizing session session' printed with
  | zero => rfl
  | succ count ih =>
    rw [linesLog] at respects
    obtain ⟨first, behind⟩ := List.forall_mem_append.mp respects
    obtain ⟨same, engine, world⟩ := generate_alike engine world first
    rw [lines, lines]
    rcases given : session.act (.generate text preserve) with ⟨⟨result, notes⟩, later⟩
    rcases given' : session'.act (.generate text preserve) with ⟨⟨result', notes'⟩, later'⟩
    rw [given, given'] at same engine world
    cases same
    cases result with
    | error refusal => rfl
    | ok answer =>
      simp only [given] at behind
      cases answer <;> exact ih engine world behind

/-! ### Loads -/

variable {yaml : Document.Reader}

/-- The session behind the load of a document, or how the program ends. -/
theorem load_of_read {session : Session ρ ω} {keywords : Bool} {file : Document.File}
    {value : Value} (read : Document.read yaml file = .ok value) :
    load yaml session keywords file =
      ((session.act (.load (.ofDocument keywords value))).1.result.mapError ofRefusal).map
        fun _ => (session.act (.load (.ofDocument keywords value))).2 := by
  rw [load, read, Load.Job.ofDocument]
  dsimp only [bind, Except.bind, mapError_ok]
  cases (session.act (.load (if keywords then .keywords value else .document value))).1.result <;>
    rfl

theorem world_load (session : Session ρ ω) (job : Load.Job) :
    (session.act (.load job)).2.world = session.world := rfl

/-- Documents that differ in their seeds are rendered alike from a seed, in related worlds, if the
rules that are resolved respect the relation. -/
theorem render_alike {file file' : Document.File} {fields fields' : Fields}
    (read : Document.read yaml file = .ok (.map fields))
    (read' : Document.read yaml file' = .ok (.map fields'))
    (documents : Document.AlikeButSeed fields fields')
    (engines : session.engine.AlikeButSeed session'.engine)
    (registry : session.registry = session'.registry)
    (world : related session.world session'.world) {text : String} {options : RenderOptions}
    {seed : Int} (seeded : options.seed = some seed)
    (respects : ∀ entry ∈ renderLog yaml session text options file, entry.rule.Respects related) :
    render yaml session text options file = render yaml session' text options file' := by
  obtain ⟨same, kept⟩ := Session.load_alike engines registry
    (Load.plan_alike documents options.keywords)
  have later := world_load session (.ofDocument options.keywords (.map fields))
  have later' := world_load session' (.ofDocument options.keywords (.map fields'))
  rw [render, render, load_of_read read, load_of_read read']
  rw [renderLog, load_of_read read] at respects
  rcases given : session.act (.load (.ofDocument options.keywords (.map fields)))
    with ⟨⟨result, notes⟩, loaded⟩
  rcases given' : session'.act (.load (.ofDocument options.keywords (.map fields')))
    with ⟨⟨result', notes'⟩, loaded'⟩
  rw [given, given'] at same kept
  rw [given] at later respects
  rw [given'] at later'
  obtain rfl : result = result' := same
  cases result with
  | error refusal => rfl
  | ok answer =>
    simp only [seeded] at respects ⊢
    refine lines_alike (kept.setSeed seed) ?_ respects
    show related loaded.world loaded'.world
    rw [later, later']
    exact world

/-! ### Functions that draw -/

/-- The rules that lines resolve are those of the engine at the beginning. -/
theorem hasRule_of_linesLog {text : String} {preserve : Bool} {count : Nat}
    {entry : Resolution ρ ω} (member : entry ∈ linesLog text preserve count session) :
    session.engine.rules.HasRule entry.name entry.rule := by
  induction count generalizing session with
  | zero => cases member
  | succ count ih =>
    rw [linesLog] at member
    rcases List.mem_append.mp member with first | behind
    · exact Expansion.hasRule_of_resolution first
    · have stems := (Expansion.stemsFrom_generate text preserve
        (⟨session.engine, session.world, []⟩ : Run ρ ω)).2
      have kept : (session.act (.generate text preserve)).2.engine.rules.mapValues Rule.reset =
          session.engine.rules.mapValues Rule.reset := stems.rules
      rcases given : session.act (.generate text preserve) with ⟨⟨_ | _, notes⟩, later⟩
      · rw [given] at behind
        cases behind
      · rw [given] at behind kept
        have has := ih behind
        rwa [Table.HasRule, ← Table.get?_mapValues, kept, Table.get?_mapValues] at has

/-- A function rule that a render resolves is a function rule of the document, with the handler of
the function that it names. -/
theorem function_of_renderLog {generator : ρ} {world : ω} {file : Document.File} {value : Value}
    (read : Document.read yaml file = .ok value) {text : String} {options : RenderOptions}
    {entry : Resolution ρ ω}
    (member : entry ∈ renderLog yaml (start generator world) text options file)
    {handler : Handler ω} {parameters : Fields} (is : entry.rule = .function handler parameters) :
    ∃ plan function given definition,
      (Load.Job.ofDocument options.keywords value).plan = .ok plan ∧
      .ok (entry.name, .function function given) ∈ plan.rules ∧
      Builtin.registry.get? function = some definition ∧ handler = definition.handler ∧
      parameters = given.getD [] := by
  rw [renderLog, load_of_read read] at member
  rcases given : (start generator world).act (.load (.ofDocument options.keywords value))
    with ⟨⟨_ | _, notes⟩, later⟩
  · rw [given] at member
    cases member
  · rw [given] at member
    have has : later.engine.rules.HasRule entry.name entry.rule := by
      have had := hasRule_of_linesLog member
      cases seeded : options.seed <;> (rw [seeded] at had; exact had)
    have behind : later = (start generator world).run
        [.load (.ofDocument options.keywords value)] := (congrArg Prod.snd given).symm
    rw [behind, is] at has
    obtain ⟨before, stage, after, split, binds, -⟩ := Session.bound_of_hasRule rfl has
    have only : stage ∈ (start generator world).stages
        [.load (.ofDocument options.keywords value)] := by
      rw [split]
      simp
    obtain rfl := List.mem_singleton.mp only
    cases binds with
    | directly action => cases action
    | loaded action planned rules whole found last =>
      cases action
      exact ⟨_, _, _, _, planned, by rw [rules]; simp, found, rfl, rfl⟩

theorem mem_all_of_registry {function : String} {definition : Definition ω}
    (found : Builtin.registry.get? function = some definition) :
    definition ∈ Builtin.all ∧ definition.name = function := by
  have member := Table.mem_of_get? found
  have entries : (Builtin.registry : Registry ω).entries =
      Builtin.all.map fun definition => (definition.name, definition) := rfl
  rw [entries] at member
  obtain ⟨other, among, same⟩ := List.mem_map.mp member
  cases same
  exact ⟨among, rfl⟩

/-- Without a rule that reads the clock, all rules that a render resolves respect worlds that draw
alike. -/
theorem respects_of_noClock {generator : ρ} {world : ω} {file : Document.File} {value : Value}
    (read : Document.read yaml file = .ok value) {text : String} {options : RenderOptions}
    (noClock : ∀ plan, (Load.Job.ofDocument options.keywords value).plan = .ok plan →
      ∀ name given, .ok (name, .function "currentTime" given) ∉ plan.rules) :
    ∀ entry ∈ renderLog yaml (start generator world) text options file,
      entry.rule.Respects Draws.Alike := by
  intro entry member
  cases is : entry.rule with
  | function handler parameters =>
    obtain ⟨plan, function, given, definition, planned, stands, found, rfl, rfl⟩ :=
      function_of_renderLog read member is
    obtain ⟨among, rfl⟩ := mem_all_of_registry found
    refine Builtin.agree_of_mem_all among (fun clock => ?_) _
    rw [clock] at stands
    exact noClock plan planned _ _ stands
  | _ => trivial

/-- Rendering from a seed is reproducible but for the draws of functions, whatever reads the
documents. Of documents that differ
in the seeds of their settings the same lines are printed, whatever the generators at the beginning:
in worlds that draw alike, if no rule names the clock, and in any worlds, if the handlers of the
rules that are resolved give the same in all of them. -/
theorem render_from_seed (yaml : Document.Reader) (generator generator' : ρ) (world world' : ω)
    {file file' : Document.File} {fields fields' : Fields}
    (read : Document.read yaml file = .ok (.map fields))
    (read' : Document.read yaml file' = .ok (.map fields'))
    (documents : Document.AlikeButSeed fields fields') (text : String) {options : RenderOptions}
    {seed : Int} (seeded : options.seed = some seed) :
    (Draws.Alike world world' →
      (∀ plan, (Load.Job.ofDocument options.keywords (.map fields)).plan = .ok plan →
        ∀ name given, .ok (name, .function "currentTime" given) ∉ plan.rules) →
      render yaml (start generator world) text options file =
        render yaml (start generator' world') text options file') ∧
    ((∀ entry ∈ renderLog yaml (start generator world) text options file,
        entry.rule.Respects fun _ _ => True) →
      render yaml (start generator world) text options file =
        render yaml (start generator' world') text options file') := by
  have engines : (start generator world).engine.AlikeButSeed (start generator' world').engine :=
    ⟨rfl, rfl, rfl, rfl⟩
  constructor
  · intro draws noClock
    exact render_alike read read' documents engines rfl draws seeded
      (respects_of_noClock read noClock)
  · intro respects
    exact render_alike read read' documents engines rfl trivial seeded respects

/-! ### A number and a colour -/

/-- A file with a JSON text. -/
def fileOf (text : String) : Document.File := ⟨"g.json", "g.json", text.toUTF8⟩

/-- Rules for a number that a function draws and for a colour that the engine draws. -/
def ruleFields : Fields :=
  [(.str "n", .map [(.str "type", .str "function"), (.str "functionName", .str "randomNumber")]),
    (.str "c", .map [(.str "type", .str "static"),
      (.str "values", .list [.str "red", .str "blue"])])]

/-- These rules as a JSON text. -/
def rulesText : String :=
  "\"rules\":\x7b\"n\":\x7b\"type\":\"function\"," ++
    "\"functionName\":\"randomNumber\"\x7d," ++
    "\"c\":\x7b\"type\":\"static\",\"values\":[\"red\",\"blue\"]\x7d\x7d"

def unseeded : Document.File := fileOf ("\x7b" ++ rulesText ++ "\x7d")

def seeded : Document.File :=
  fileOf ("\x7b" ++ rulesText ++ ",\"settings\":\x7b\"randomSeed\":7\x7d\x7d")

theorem read_unseeded (yaml : Document.Reader) :
    Document.read yaml unseeded = .ok (.map [(.str "rules", .map ruleFields)]) := by
  rw [Document.read, unseeded, fileOf, Document.File.text_toUTF8]
  cbv

theorem read_seeded (yaml : Document.Reader) :
    Document.read yaml seeded = .ok (.map [(.str "rules", .map ruleFields),
      (.str "settings", .map [(.str "randomSeed", .int 7)])]) := by
  rw [Document.read, seeded, fileOf, Document.File.text_toUTF8]
  cbv

/-- One line, from the seed one. -/
def once : RenderOptions := ⟨1, some 1, false, false⟩

theorem alike_calls (draws : List Number) (calls calls' : List DrawCall) :
    Draws.Alike (⟨draws, calls⟩ : Script) ⟨draws, calls'⟩ := by
  intro bounds
  induction bounds generalizing draws calls calls' with
  | nil => rfl
  | cons bound rest ih =>
    exact congrArg₂ List.cons rfl (ih (draws.drop 1) (.below bound.1 :: calls)
      (.below bound.1 :: calls'))

theorem render_from_seed_applied :
    Document.AlikeButSeed [(.str "rules", .map ruleFields)] [(.str "rules", .map ruleFields),
      (.str "settings", .map [(.str "randomSeed", .int 7)])] ∧
    render Yaml.read (start (⟨[], []⟩ : Script) (⟨[.int 4], []⟩ : Script)) "%n%" once unseeded =
      render Yaml.read (start (⟨[.int 1], []⟩ : Script) (⟨[.int 4], [.unit]⟩ : Script)) "%n%" once
        seeded ∧
    render Yaml.read (start (⟨[], []⟩ : Script) (⟨[.int 4], []⟩ : Script)) "%c%" once unseeded =
      render Yaml.read (start (⟨[.int 1], []⟩ : Script) (⟨[.int 9], []⟩ : Script)) "%c%" once
        seeded := by
  have documents : Document.AlikeButSeed [(.str "rules", .map ruleFields)]
      [(.str "rules", .map ruleFields),
        (.str "settings", .map [(.str "randomSeed", .int 7)])] :=
    ⟨⟨none, some ⟨none, some 7⟩, rfl, rfl, rfl⟩, rfl, rfl⟩
  refine ⟨documents, ?_, ?_⟩
  · refine (render_from_seed Yaml.read _ _ _ _ (read_unseeded _) (read_seeded _) documents "%n%"
      rfl).1 (alike_calls _ _ _) ?_
    intro plan planned name given stands
    have is : (Load.Job.ofDocument once.keywords
        (.map [(.str "rules", .map ruleFields)])).plan = .ok ⟨none, none,
          [.ok ("n", .function "randomNumber" none),
            .ok ("c", .static [.str "red", .str "blue"])]⟩ := rfl
    cases is.symm.trans planned
    simp at stands
  · refine (render_from_seed Yaml.read _ _ _ _ (read_unseeded _) (read_seeded _) documents "%c%"
      rfl).2 ?_
    have resolved : (renderLog Yaml.read (start (⟨[], []⟩ : Script) (⟨[.int 4], []⟩ : Script))
        "%c%" once unseeded).map Resolution.rule = [.static [.str "red", .str "blue"]] := by
      rw [renderLog, load_of_read (read_unseeded _)]
      cbv
    intro entry member
    have is := List.mem_map_of_mem (f := Resolution.rule) member
    rw [resolved] at is
    rw [List.mem_singleton.mp is]
    trivial

/-- The seed does not determine the draws of functions: the same document is rendered differently in
two worlds. -/
theorem number_depends_on_world :
    ¬ ∀ world world' : Script,
      render Yaml.read (start (⟨[], []⟩ : Script) world) "%n%" once unseeded =
        render Yaml.read (start (⟨[], []⟩ : Script) world') "%n%" once unseeded := by
  intro every
  have five : render Yaml.read (start (⟨[], []⟩ : Script) (⟨[.int 4], []⟩ : Script)) "%n%" once
      unseeded = ⟨.text "5\n", .exit 0⟩ := by
    rw [render, load_of_read (read_unseeded _)]
    cbv
  have ten : render Yaml.read (start (⟨[], []⟩ : Script) (⟨[.int 9], []⟩ : Script)) "%n%" once
      unseeded = ⟨.text "10\n", .exit 0⟩ := by
    rw [render, load_of_read (read_unseeded _)]
    cbv
  have same := every ⟨[.int 4], []⟩ ⟨[.int 9], []⟩
  rw [five, ten] at same
  exact absurd same (by decide)

end Report

end TextGrammar
