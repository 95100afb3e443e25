import TextGrammar.Config.Keyword
import TextGrammar.Config.Tagged
import TextGrammar.Proofs.Config.Forms

/-!
The tagged form of keyword rules. A keyword rule whose fields have the right forms is read as the
same rule as its tagged form, apart from a cycle setting that is no boolean.
-/

namespace TextGrammar

namespace Keyword

/-- The fields that keyword rules are read from have the right forms, as far as they are given. -/
structure FieldsTyped (fields : Fields) : Prop where
  lists : ∀ key ∈ ["then", "else", "values", "weights", "sequence"],
    (fields.get key).isNull ∨ (fields.get key).isList
  texts : ∀ key ∈ ["if", "template", "function", "type"],
    (fields.get key).isNull ∨ (fields.get key).isText
  bindings : (fields.get "variables").isNull ∨ (fields.get "variables").isMapOfLists
  step : (fields.get "step").isNull ∨ (fields.get "step").isNumber

/-- A list, or an object whose fields have the right forms. -/
def Typed : Value → Prop
  | .list _ => True
  | .map fields => FieldsTyped fields
  | _ => False

/-! ### The tagged form -/

/-- The fields that are given, under their new names. -/
def renamed (names : List (String × String)) (fields : Fields) : Fields :=
  names.filterMap fun name => (fields.get? name.1).map fun value => (.str name.2, value)

/-- The fields that a kind keeps: their names in keyword rules and in tagged ones. -/
def fieldNames : RuleKind → List (String × String)
  | .static | .conditional => []
  | .weighted => [("values", "values"), ("weights", "weights")]
  | .range => [("min", "min"), ("max", "max"), ("step", "step")]
  | .template => [("template", "template"), ("variables", "variables")]
  | .sequential => [("sequence", "values"), ("cycle", "cycle")]
  | .function => [("function", "functionName"), ("parameters", "parameters")]

/-- The entry for the condition and its values. -/
def guardedEntry (fields : Fields) : Value := .map (renamed [("if", "if"), ("then", "then")] fields)

/-- The entry for the values of the other case, if they are a list. -/
def defaultEntries (fields : Fields) : List Value :=
  match fields.get "else" with
  | .list values => [.map [(.str "default", .list values)]]
  | _ => []

/-- The type of the numbers of a range: integers if it is empty or absent. -/
def numberType (fields : Fields) : Value :=
  if (fields.get "type").truthy then fields.get "type" else .str "integer"

/-- The fields of the tagged form that have no counterpart in the keyword rule. -/
def madeFields (fields : Fields) : RuleKind → Fields
  | .conditional => [(.str "conditions", .list (guardedEntry fields :: defaultEntries fields))]
  | .range => [(.str "numberType", numberType fields)]
  | _ => []

/-- The fields of the tagged form of an object as one of a kind. -/
def taggedFields (fields : Fields) (kind : RuleKind) : Fields :=
  (.str "type", .str kind.name) :: (madeFields fields kind ++ renamed (fieldNames kind) fields)

/-- The tagged form of a keyword rule as one of a kind. -/
def tagged (kind : RuleKind) : Value → Value
  | .list items => .map [(.str "type", .str kind.name), (.str "values", .list items)]
  | .map fields => .map (taggedFields fields kind)
  | value => value

/-- The tagged form of a keyword rule as one of its own kind. -/
def taggedForm (rule : Value) : Value :=
  match kind? rule with
  | some kind => tagged kind rule
  | none => rule

/-! ### Reading fields -/

variable {fields : Fields} {kind : RuleKind}

theorem get?_renamed_of_notMem {names : List (String × String)} {name : String}
    (absent : name ∉ names.map Prod.snd) : (renamed names fields).get? name = none := by
  induction names with
  | nil => rfl
  | cons first rest ih =>
    obtain ⟨different, absent⟩ := not_or.mp (mt List.mem_cons.mpr absent)
    cases given : fields.get? first.1 with
    | none => simpa [renamed, given] using ih absent
    | some value => simpa [renamed, given, Fields.get?_cons, Ne.symm different] using ih absent

/-- A renamed field has its value under the new name. -/
theorem get?_renamed {names : List (String × String)} (distinct : (names.map Prod.snd).Nodup)
    {old new : String} (member : (old, new) ∈ names) :
    (renamed names fields).get? new = fields.get? old := by
  induction names with
  | nil => cases member
  | cons first rest ih =>
    obtain ⟨fresh, distinct⟩ := List.nodup_cons.mp distinct
    rcases List.mem_cons.mp member with rfl | member
    · have behind : (renamed rest fields).get? new = none := get?_renamed_of_notMem fresh
      cases given : fields.get? old with
      | none => simpa [renamed, given] using behind
      | some value => simp [renamed, given, Fields.get?_cons]
    · have different : first.2 ≠ new := by
        rintro rfl
        exact fresh (List.mem_map.mpr ⟨_, member, rfl⟩)
      have behind := ih distinct member
      cases given : fields.get? first.1 with
      | none => simpa [renamed, given] using behind
      | some value => simpa [renamed, given, Fields.get?_cons, different] using behind

/-- A field that a kind keeps has its value in the tagged form. -/
theorem get_taggedFields (fields : Fields) (kind : RuleKind) (old new : String)
    (member : (old, new) ∈ fieldNames kind) :
    (taggedFields fields kind).get new = fields.get old := by
  have names : ∀ name ∈ fieldNames kind,
      name.2 ≠ "type" ∧ name.2 ≠ "numberType" ∧ name.2 ≠ "conditions" := by
    cases kind <;> decide
  have distinct : ((fieldNames kind).map Prod.snd).Nodup := by cases kind <;> decide
  obtain ⟨untyped, unnumbered, unconditional⟩ := names _ member
  have unmade : (madeFields fields kind).get? new = none := by
    cases kind with
    | conditional => simp [madeFields, Fields.get?_cons, Fields.get?_nil, Ne.symm unconditional]
    | range => simp [madeFields, Fields.get?_cons, Fields.get?_nil, Ne.symm unnumbered]
    | _ => rfl
  simp [taggedFields, Fields.get, Fields.get?_cons, Fields.get?_append, Ne.symm untyped, unmade,
    get?_renamed distinct member]

theorem get_numberType (fields : Fields) :
    (taggedFields fields .range).get "numberType" = numberType fields := by
  simp [taggedFields, madeFields, Fields.get, Fields.get?_cons]

theorem get_conditions (fields : Fields) :
    (taggedFields fields .conditional).get "conditions" =
      .list (guardedEntry fields :: defaultEntries fields) := by
  simp [taggedFields, madeFields, Fields.get, Fields.get?_cons]

theorem get_guardedEntry (fields : Fields) {key : String} (member : key ∈ ["if", "then"]) :
    Fields.get (renamed [("if", "if"), ("then", "then")] fields) key = fields.get key := by
  have kept : (key, key) ∈ [("if", "if"), ("then", "then")] := by simpa using member
  rw [Fields.get, get?_renamed (by decide) kept, Fields.get]

theorem get_default_guardedEntry (fields : Fields) :
    Fields.get (renamed [("if", "if"), ("then", "then")] fields) "default" = .null := by
  rw [Fields.get, get?_renamed_of_notMem (by decide), Option.getD_none]

/-- The tagged form is read as a rule of its kind. -/
theorem rule_taggedFields (name : String) :
    Tagged.rule name (.map (taggedFields fields kind)) =
      Tagged.ruleOfKind name (taggedFields fields kind) kind :=
  rule_of_type (by simp [taggedFields, Fields.get, Fields.get?_cons])

end Keyword

end TextGrammar
