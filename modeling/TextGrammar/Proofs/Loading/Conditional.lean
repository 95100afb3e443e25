import TextGrammar.Proofs.Loading.Entries
import TextGrammar.Random.Twister

/-!
Conditional rules from their raw entries to what they give. Main statement: a rule that has been
loaded gives one of the values of the first entry whose condition holds, or else one of the first
default values, wherever they stand; so entries whose condition cannot be read may be left out, and
default entries may be moved.
-/

namespace TextGrammar

open Condition Effect

/-! ### Jobs -/

namespace Load

open Entry

variable {ρ ω : Type} {registry : Registry ω} {name : String} {fields : Fields}
  {entries : List Value}

/-- The rule that the fields describe is the last one of this name that the job loads. -/
def LoadsLast (job : Job) (name : String) (fields : Fields) : Prop :=
  ∃ plan before behind, job.plan = .ok plan ∧
    plan.rules = before ++ (do return (name, ← taggedConfig name (.map fields))) :: behind ∧
    ∀ other config, .ok (other, config) ∈ behind → other ≠ name

/-- A conditional rule is registered exactly if each of its entries becomes a branch. -/
theorem taggedConfig_registered_iff (typed : fields.get "type" = .str "conditional")
    (listed : fields.get "conditions" = .list entries) {registration : Registration ω} :
    taggedConfig name (.map fields) >>= registered registry name = .ok registration ↔
      ∃ branches, List.Forall₂ Becomes entries branches ∧
        registration = .conditional branches := by
  have read : taggedConfig name (.map fields) = Tagged.ruleOfKind name fields .conditional :=
    rule_of_type typed
  rw [read, bind_eq_ok]
  constructor
  · rintro ⟨config, given, is⟩
    obtain ⟨kind, -⟩ := Tagged.madeFrom_ruleOfKind given
    cases config with
    | conditional configs =>
      obtain ⟨others, same, normalised⟩ := Tagged.conditional_eq_ok_iff.mp given
      cases listed.symm.trans same
      obtain ⟨branches, makes, same⟩ := (registered_conditional_eq_ok_iff registry name).mp is
      exact ⟨branches, becomes_all_iff.mpr ⟨configs, normalised, makes⟩, same⟩
    | static | function | weighted | sequential | range | template => cases kind
  · rintro ⟨branches, becomes, same⟩
    obtain ⟨configs, normalised, makes⟩ := becomes_all_iff.mp becomes
    exact ⟨.conditional configs, Tagged.conditional_eq_ok_iff.mpr ⟨entries, listed, normalised⟩,
      (registered_conditional_eq_ok_iff registry name).mpr ⟨branches, makes, same⟩⟩

/-- If all rules are registered, so is each of them, before those behind it. -/
theorem registerRules_of_whole {before behind : List (Except LoadError (String × RuleConfig))}
    {config : Except LoadError RuleConfig}
    (whole : (registerRules registry (before ++ (do return (name, ← config)) :: behind)).1 =
      .ok ()) :
    ∃ registration first second, config >>= registered registry name = .ok registration ∧
      (registerRules registry (before ++ (do return (name, ← config)) :: behind)).2 =
        first ++ (name, registration) :: second ∧
      second = (registerRules registry behind).2 := by
  induction before with
  | nil =>
    cases config with
    | error error => cases whole
    | ok config =>
      show ∃ registration first second, registered registry name config = .ok registration ∧
        (registerRules registry (.ok (name, config) :: behind)).2 = _ ∧ _
      change (registerRules registry (.ok (name, config) :: behind)).1 = .ok () at whole
      simp only [registerRules] at whole ⊢
      cases result : registered registry name config with
      | error error =>
        rw [result] at whole
        cases whole
      | ok registration => exact ⟨registration, [], _, rfl, rfl, rfl⟩
  | cons entry before ih =>
    cases entry with
    | error error => cases whole
    | ok named =>
      obtain ⟨other, otherConfig⟩ := named
      simp only [List.cons_append, registerRules] at whole ⊢
      cases result : registered registry other otherConfig with
      | error error =>
        rw [result] at whole
        cases whole
      | ok given =>
        rw [result] at whole
        obtain ⟨registration, first, second, is, split, rest⟩ := ih whole
        refine ⟨registration, (other, given) :: first, second, is, ?_, rest⟩
        simp only [split, List.cons_append]

/-- Rules of other names leave a rule as it is. -/
theorem get?_performAll_of_ne [Seeded ρ] (engine : Engine ρ ω)
    {rules : List (String × Registration ω)} (others : ∀ entry ∈ rules, entry.1 ≠ name) :
    (engine.performAll (registerRequests rules)).rules.get? name = engine.rules.get? name := by
  induction rules generalizing engine with
  | nil => rfl
  | cons entry rest ih =>
    obtain ⟨different, others⟩ := List.forall_mem_cons.mp others
    refine (ih _ others).trans ?_
    exact Table.get?_put_of_ne _ _ different.symm

variable [Seeded ρ]

/-- Behind a job that is done to its end, the engine has the rule as it is registered. -/
theorem rule_of_loadsLast {job : Job} (last : LoadsLast job name fields)
    {loading : Loading (Engine ρ ω)}
    (loaded : ((run registry job : Load (Engine ρ ω) Unit) loading).1 = .ok ()) :
    ∃ registration, taggedConfig name (.map fields) >>= registered registry name =
        .ok registration ∧
      ((run registry job : Load (Engine ρ ω) Unit) loading).2.engine.rules.get? name =
        some registration.rule := by
  obtain ⟨plan, before, behind, planned, rules, others⟩ := last
  have traced := trace_run (fun _ => false) registry job
  have performed := run_eq_performAll (fun _ => false) registry job loading.engine loading.notes
  simp only [planned] at traced
  have whole : (registerRules registry plan.rules).1 = .ok () :=
    (congrArg Prod.fst traced).symm.trans ((outcome_eq registry job _ loading).trans loaded)
  rw [rules] at whole
  obtain ⟨registration, first, second, is, split, rest⟩ := registerRules_of_whole whole
  have different : ∀ entry ∈ second, entry.1 ≠ name := by
    intro entry member
    obtain ⟨config, present, -⟩ := exists_of_mem_registerRules (rest ▸ member)
    exact others _ _ present
  refine ⟨registration, is, ?_⟩
  rw [performed, traced]
  simp only [requests, rules, split, registerRequests, List.map_append, List.map_cons,
    Engine.performAll, List.foldl_append, List.foldl_cons]
  exact (get?_performAll_of_ne _ different).trans (Table.get?_put_self ..)

/-- A rule of entries that become branches is loaded to its end. -/
theorem run_rule_of_becomes (typed : fields.get "type" = .str "conditional")
    (listed : fields.get "conditions" = .list entries) {branches : List Branch}
    (becomes : List.Forall₂ Becomes entries branches) (loading : Loading (Engine ρ ω)) :
    ((run registry (.rule name (.map fields)) : Load (Engine ρ ω) Unit) loading).1 = .ok () := by
  have is : taggedConfig name (.map fields) >>= registered registry name =
      .ok (.conditional branches) :=
    (taggedConfig_registered_iff typed listed).mpr ⟨branches, becomes, rfl⟩
  obtain ⟨config, read, is⟩ := bind_eq_ok.mp is
  have whole : (registerRules registry [.ok (name, config)]).1 = .ok () := by
    simp only [registerRules, is]
  have traced := trace_run (fun _ => false) registry (.rule name (.map fields))
  simp only [Job.plan, read] at traced
  exact (outcome_eq registry _ loading _).trans ((congrArg Prod.fst traced).trans whole)

variable [Draws ρ]

/-- A conditional rule that has been loaded, with its entries in any form, gives one of the values
that the entries choose in any map that presents the context: those of the first entry whose
condition holds, or else the first default ones, or else none. Without entries whose condition
cannot be read, and with default entries moved, the entries can be loaded as well and give the
same. -/
theorem conditional_in_order {job : Job} (last : LoadsLast job name fields)
    (typed : fields.get "type" = .str "conditional")
    (listed : fields.get "conditions" = .list entries) {loading : Loading (Engine ρ ω)}
    (loaded : ((run registry job : Load (Engine ρ ω) Unit) loading).1 = .ok ()) :
    ∃ rule, ((run registry job : Load (Engine ρ ω) Unit) loading).2.engine.rules.get? name =
        some rule ∧
      (∀ (context : Table String) (given : Value), given.Presents context →
        (∃ values, Chooses given entries values) ∧
        ∀ values, Chooses given entries values →
          ∃ notes, (rule.pick context : Pick ρ ω String) = do
            Pick.report notes
            Pick.uniform values) ∧
      ∀ others, Pruned entries others ∨ Moved entries others →
        ∀ (otherName : String) (otherFields : Fields),
          otherFields.get "type" = .str "conditional" →
          otherFields.get "conditions" = .list others →
          (∀ start, ((run registry (.rule otherName (.map otherFields)) :
            Load (Engine ρ ω) Unit) start).1 = .ok ()) ∧
          ∀ otherJob start, LoadsLast otherJob otherName otherFields →
            ((run registry otherJob : Load (Engine ρ ω) Unit) start).1 = .ok () →
            ∃ other, ((run registry otherJob : Load (Engine ρ ω) Unit) start).2.engine.rules.get?
                otherName = some other ∧
              ∀ context, (other.pick context : Pick ρ ω String) = rule.pick context := by
  obtain ⟨registration, is, found⟩ := rule_of_loadsLast last loaded
  obtain ⟨branches, becomes, rfl⟩ := (taggedConfig_registered_iff typed listed).mp is
  refine ⟨_, found, ?_, ?_⟩
  · intro context given presents
    refine ⟨exists_chooses given becomes, fun values chooses => ?_⟩
    have chosen := Rule.decides_iff.mp (decides_of_chooses presents becomes chooses)
    refine ⟨Pick.guardNotes context branches, ?_⟩
    rw [Registration.rule, Rule.pick, chosen]
    rfl
  · intro others rearranged otherName otherFields otherTyped otherListed
    have kept : ∃ left, List.Forall₂ Becomes others left ∧ SameOrders left branches :=
      rearranged.elim (fun pruned => pruned.becomes becomes) fun moved => moved.becomes becomes
    obtain ⟨left, becomesLeft, defaults, readable⟩ := kept
    refine ⟨run_rule_of_becomes otherTyped otherListed becomesLeft, ?_⟩
    intro otherJob start otherLast otherLoaded
    obtain ⟨_, otherIs, otherFound⟩ := rule_of_loadsLast otherLast otherLoaded
    obtain ⟨given, becomesGiven, rfl⟩ :=
      (taggedConfig_registered_iff otherTyped otherListed).mp otherIs
    obtain rfl := becomes_unique becomesGiven becomesLeft
    exact ⟨_, otherFound, fun context => Rule.pick_eq_of_orders context defaults readable⟩

end Load

/-! ### A welcome -/

namespace Entry

/-- A default entry, whose condition is not looked at. -/
def hello : Value :=
  .map [(.str "default", .list [.str "Hello"]), (.str "if", .str "context.mood"),
    (.str "then", .list [.str "Hey"])]

/-- An entry whose condition cannot be read. -/
def unread : Value := .map [(.str "if", .str "context."), (.str "then", .list [.str "What"])]

def hi : Value := .map [(.str "if", .str "context.mood"), (.str "then", .list [.str "Hi"])]

def silence : Value := .map [(.str "default", .list [])]

def welcome (entries : List Value) : Fields :=
  [(.str "type", .str "conditional"), (.str "conditions", .list entries)]

theorem denotes_mood : Denotes "context.mood" (.lookup "mood") := by
  refine ⟨[.word "context", .dot, .word "mood"],
    scan_eq_ok_iff.mp ⟨[⟨.word "context", 0, 7⟩, ⟨.dot, 7, 8⟩, ⟨.word "mood", 8, 12⟩], by cbv, rfl⟩,
    .mk (.mk (.comparison (.operand (.primary (.lookup (.dotted "mood"))))) .none) .none, rfl, rfl⟩

theorem compile_unread :
    Predicate.compile "context." = .ok ⟨"context.", .error ⟨.expected .word .finish, 8⟩⟩ := by
  cbv

theorem becomes_welcome :
    ∃ branches, List.Forall₂ Becomes [hello, unread, hi, silence] branches := by
  have mood := Predicate.compile_of_denotes denotes_mood
  exact ⟨_, .cons (.default rfl rfl) (.cons (.guarded rfl rfl rfl (by decide) rfl compile_unread)
    (.cons (.guarded rfl rfl rfl (by decide) rfl mood) (.cons (.default rfl rfl) .nil)))⟩

theorem not_holds_of_set {context entry : Value} (set : isDefault entry = true) :
    ¬ Holds context entry := by
  rintro ⟨tree, value, ⟨unset, -⟩, -⟩
  cases set.symm.trans unset

theorem not_readable_unread : ¬ Readable unread := by
  rintro ⟨tree, -, text, shown, denotes⟩
  cases shown
  cases compile_unread.symm.trans (Predicate.compile_of_denotes denotes)

theorem not_holds_unread (context : Value) : ¬ Holds context unread := by
  rintro ⟨tree, value, means, -⟩
  exact not_readable_unread ⟨tree, means⟩

/-- Whoever has a mood is greeted by the third entry. -/
theorem chooses_hi : Chooses (.map [(.str "mood", .str "glad")]) [hello, unread, hi, silence]
    [.str "Hi"] := by
  have earlier : ∀ other ∈ [hello, unread], ¬ Holds (.map [(.str "mood", .str "glad")]) other :=
    List.forall_mem_cons.mpr ⟨not_holds_of_set rfl,
      List.forall_mem_singleton.mpr (not_holds_unread _)⟩
  have holds : Holds (.map [(.str "mood", .str "glad")]) hi :=
    ⟨_, .str "glad", ⟨rfl, _, rfl, denotes_mood⟩, rfl, rfl⟩
  exact @Chooses.guarded _ _ [hello, unread] [silence] hi _ rfl earlier holds rfl

/-- Whoever has none is greeted by the first default entry. -/
theorem chooses_hello : Chooses (.map []) [hello, unread, hi, silence] [.str "Hello"] := by
  have hiFails : ¬ Holds (.map []) hi := by
    rintro ⟨tree, value, ⟨-, text, shown, denotes⟩, evaluated, counts⟩
    cases shown
    have mood := Predicate.compile_of_denotes denotes_mood
    cases mood.symm.trans (Predicate.compile_of_denotes denotes)
    cases evaluated
    cases counts
  have never : ∀ other ∈ [hello, unread, hi, silence], ¬ Holds (.map []) other :=
    List.forall_mem_cons.mpr ⟨not_holds_of_set rfl, List.forall_mem_cons.mpr
      ⟨not_holds_unread _, List.forall_mem_cons.mpr
        ⟨hiFails, List.forall_mem_singleton.mpr (not_holds_of_set rfl)⟩⟩⟩
  exact @Chooses.default _ _ [] [unread, hi, silence] hello _ never rfl (List.forall_mem_nil _) rfl
    rfl

end Entry

namespace Load

open Entry

/-- The entries are greeted with in their order, also without the one that cannot be read. -/
theorem welcome_in_order :
    let entries := [hello, unread, hi, silence]
    let job : Job := .rule "welcome" (.map (welcome entries))
    let shorter : Job := .rule "welcome" (.map (welcome [hello, hi, silence]))
    let load (job : Job) : Except LoadError Unit × Loading (Engine Twister Unit) :=
      (run .empty job : Load (Engine Twister Unit) Unit) ⟨Engine.new, []⟩
    LoadsLast job "welcome" (welcome entries) ∧
      (welcome entries).get "type" = .str "conditional" ∧
      (welcome entries).get "conditions" = .list entries ∧ (load job).1 = .ok () ∧
      ∃ rule, (load job).2.engine.rules.get? "welcome" = some rule ∧
        (∃ notes, (rule.pick ⟨[("mood", "glad")]⟩ : Pick Twister Unit String) = do
          Pick.report notes
          Pick.uniform [.str "Hi"]) ∧
        (∃ notes, (rule.pick .empty : Pick Twister Unit String) = do
          Pick.report notes
          Pick.uniform [.str "Hello"]) ∧
        ∃ other, (load shorter).2.engine.rules.get? "welcome" = some other ∧
          ∀ context, (other.pick context : Pick Twister Unit String) = rule.pick context := by
  intro entries job shorter load
  have last (entries : List Value) :
      LoadsLast (.rule "welcome" (.map (welcome entries))) "welcome" (welcome entries) :=
    ⟨_, [], [], rfl, rfl, nofun⟩
  obtain ⟨branches, becomes⟩ := becomes_welcome
  have loaded : (load job).1 = .ok () := run_rule_of_becomes rfl rfl becomes _
  obtain ⟨rule, found, gives, rearranged⟩ := conditional_in_order (last entries) rfl rfl loaded
  have pruned : Pruned entries [hello, hi, silence] :=
    .keep (.delete rfl not_readable_unread (.keep (.keep .nil)))
  obtain ⟨loads, same⟩ := rearranged _ (.inl pruned) "welcome" (welcome [hello, hi, silence]) rfl
    rfl
  have glad : Value.Presents ⟨[("mood", "glad")]⟩ (.map [(.str "mood", .str "glad")]) :=
    Value.presents_contextValue ⟨[("mood", "glad")]⟩
  have blank : Value.Presents .empty (.map []) := Value.presents_contextValue .empty
  exact ⟨last entries, rfl, rfl, loaded, rule, found, (gives _ _ glad).2 _ chooses_hi,
    (gives _ _ blank).2 _ chooses_hello, same _ _ (last _) (loads _)⟩

end Load

end TextGrammar
