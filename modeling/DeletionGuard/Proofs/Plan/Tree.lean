import DeletionGuard.Plan.Document
import DeletionGuard.Proofs.Json.Shape

/-!
# The plan that a text holds

A plan is read off the syntax tree of its text, field by field. The reader accepts a text exactly if
it is JSON and the tree holds a plan, and then gives that plan.
-/

namespace DeletionGuard

namespace Json.Node

/-- The actions in the block of a change. -/
def actions? (n : Node) : Option (List String) := do
  let fields ← n.fields? ["actions"]
  fieldOr [] (list? string?) (fields.lookup "actions")

def change? (n : Node) : Option ResourceChange := do
  let fields ← n.fields? ["address", "change"]
  let address ← fieldOr "" string? (fields.lookup "address")
  let actions ← fieldOr [] actions? (fields.lookup "change")
  return ⟨address, actions⟩

def plan? (n : Node) : Option Plan := do
  let fields ← n.fields? ["resource_changes"]
  let changes ← fieldOr [] (list? change?) (fields.lookup "resource_changes")
  return ⟨changes⟩

end Json.Node

open Json

namespace Plan

/-! ### Fields that are settled -/

variable {α σ : Type} {read? : Node → Option α} {set : α → σ → σ}

theorem setting?_cases {n : Node} {c : σ → σ} (h : n.setting? read? set = some c) :
    c = id ∨ ∃ a, c = set a := by
  cases n with
  | null => exact .inl (Option.some.inj h).symm
  | _ =>
    obtain ⟨a, -, rfl⟩ := Option.map_eq_some_iff.1 h
    exact .inr ⟨a, rfl⟩

/-- A field is settled to its value if the record already has the default. -/
theorem settle_field {default : α} {s : σ} (h : set default s = s) (slot : Option Node) :
    (match slot with
      | none => some s
      | some n => (n.setting? read? set).map (· s)) =
      (Node.fieldOr default read? slot).map (set · s) := by
  cases slot with
  | none => simp [Node.fieldOr, h]
  | some n =>
    cases n with
    | null => simp [Node.fieldOr, Node.setting?, h]
    | _ => simp [Node.fieldOr, Node.setting?, Function.comp_def]

/-- A record gives its fields in the order of their names, whatever the order in the text. -/
theorem bind_settle? {names : List String} (hnames : names.Nodup)
    {change? : String → Node → Option (σ → σ)} (hcommute : Commute names change?) (s : σ)
    (n : Node) :
    (n.fields? names).bind (settle? change? s) =
      (n.fields? names).bind fun fields => names.foldlM (fun s name =>
        match fields.lookup name with
        | none => some s
        | some n => (change? name n).map (· s)) s := by
  cases hfields : n.fields? names with
  | none => rfl
  | some fields =>
    obtain ⟨hnodup, hknown⟩ := Node.fields?_spec hnames hfields
    exact settle?_eq_foldlM hcommute hnames hnodup hknown s

/-- With one name there is nothing to exchange. -/
theorem commute_singleton (name : String) (change? : String → Node → Option (σ → σ)) :
    Commute [name] change? := by
  intro key hkey key' hkey' hne
  rw [List.mem_singleton] at hkey hkey'
  exact absurd (hkey.trans hkey'.symm) hne

/-! ### The records of a plan -/

/-- What the field of a block makes of the actions. -/
def actionsChange? (_ : String) : Node → Option (List String → List String) :=
  Node.setting? (Node.list? Node.string?) fun actions _ => actions

/-- What a field makes of a change. -/
def changeChange? (key : String) : Node → Option (ResourceChange → ResourceChange) :=
  if key = "address" then Node.setting? Node.string? fun address rc => { rc with address }
  else Node.setting? Node.actions? fun actions rc => { rc with actions }

/-- What the field of a plan makes of the plan. -/
def planChange? (_ : String) : Node → Option (Plan → Plan) :=
  Node.setting? (Node.list? Node.change?) fun changes _ => ⟨changes⟩

theorem settles_actions : Value.Settles actionsShape.fields actionsChange? := by
  rw [Value.Settles, actionsShape, List.forall_mem_singleton]
  exact .orNull (.list Value.means_text) _

theorem actions?_eq (n : Node) :
    n.actions? = (n.fields? ["actions"]).bind (settle? actionsChange? []) := by
  rw [bind_settle? (by decide) (commute_singleton _ _), Node.actions?]
  congr
  funext fields
  rw [List.foldlM_cons, actionsChange?, settle_field rfl]
  cases Node.fieldOr [] (Node.list? Node.string?) (fields.lookup "actions") <;> rfl

theorem means_actions : (Value.record actionsShape).Means Node.actions? := by
  rw [funext actions?_eq]
  exact .record settles_actions

theorem settles_change : Value.Settles changeShape.fields changeChange? := by
  rw [Value.Settles, changeShape, List.forall_mem_cons, List.forall_mem_singleton]
  exact ⟨.orNull Value.means_text _, .orNull means_actions _⟩

/-- One field sets the address and the other one the actions. -/
theorem commute_change : Commute ["address", "change"] changeChange? := by
  have hexchange {n n' : Node} {c c' : ResourceChange → ResourceChange}
      (h : changeChange? "address" n = some c) (h' : changeChange? "change" n' = some c')
      (rc : ResourceChange) : c (c' rc) = c' (c rc) := by
    rcases setting?_cases h with rfl | ⟨_, rfl⟩ <;> rcases setting?_cases h' with rfl | ⟨_, rfl⟩ <;>
      rfl
  intro key hkey key' hkey' hne n n' c c' h h' rc
  simp only [List.mem_cons, List.not_mem_nil, or_false] at hkey hkey'
  rcases hkey with rfl | rfl <;> rcases hkey' with rfl | rfl
  · exact absurd rfl hne
  · exact hexchange h h' rc
  · exact (hexchange h' h rc).symm
  · exact absurd rfl hne

theorem change?_eq (n : Node) :
    n.change? = (n.fields? ["address", "change"]).bind (settle? changeChange? ⟨"", []⟩) := by
  have haddress : changeChange? "address" =
      Node.setting? Node.string? fun address rc => { rc with address } := rfl
  have hactions : changeChange? "change" =
      Node.setting? Node.actions? fun actions rc => { rc with actions } := rfl
  rw [bind_settle? (by decide) commute_change, Node.change?]
  congr
  funext fields
  rw [List.foldlM_cons, haddress, settle_field rfl]
  cases Node.fieldOr "" Node.string? (fields.lookup "address") with
  | none => rfl
  | some address =>
    simp only [Option.map_some, Option.bind_eq_bind, Option.bind_some, List.foldlM_cons, hactions]
    rw [settle_field rfl]
    cases Node.fieldOr [] Node.actions? (fields.lookup "change") <;> rfl

theorem means_change : (Value.record changeShape).Means Node.change? := by
  rw [funext change?_eq]
  exact .record settles_change

theorem settles_plan : Value.Settles planShape.fields planChange? := by
  rw [Value.Settles, planShape, List.forall_mem_singleton]
  exact .orNull (.list means_change) _

theorem plan?_eq (n : Node) :
    n.plan? = (n.fields? ["resource_changes"]).bind (settle? planChange? ⟨[]⟩) := by
  rw [bind_settle? (by decide) (commute_singleton _ _), Node.plan?]
  congr
  funext fields
  rw [List.foldlM_cons, planChange?, settle_field rfl]
  cases Node.fieldOr [] (Node.list? Node.change?) (fields.lookup "resource_changes") <;> rfl

theorem means_plan : (Value.record planShape).Means Node.plan? := by
  rw [funext plan?_eq]
  exact .record settles_plan

/-- The text of a tree is read as the plan that the tree holds and refused if it holds none. -/
theorem parse_text (d : Document) : (parse d.text).toOption = d.value.plan? := by
  have hread := Value.document_text means_plan d
  rw [parse, ofBytes]
  cases hdocument : (Value.record planShape).document (Utf8.ofString d.text) with
  | error fault => rw [← hread, hdocument]; rfl
  | ok plan => rw [← hread, hdocument]; rfl

/-- A text that is read is the text of a tree. -/
theorem exists_document {t : String} {plan : Plan} (h : parse t = .ok plan) :
    ∃ d : Document, d.text = t := by
  have hactions : (Value.record actionsShape).PassesTree := by
    refine .record ?_
    rw [actionsShape, List.forall_mem_singleton]
    exact .orNull (.list Value.passesTree_text) _
  have hchange : (Value.record changeShape).PassesTree := by
    refine .record ?_
    rw [changeShape, List.forall_mem_cons, List.forall_mem_singleton]
    exact ⟨.orNull Value.passesTree_text _, .orNull hactions _⟩
  have hplan : (Value.record planShape).PassesTree := by
    refine .record ?_
    rw [planShape, List.forall_mem_singleton]
    exact .orNull (.list hchange) _
  rw [parse, ofBytes] at h
  cases hdocument : (Value.record planShape).document (Utf8.ofString t) with
  | error fault => rw [hdocument] at h; cases h
  | ok plan => exact Value.exists_document hplan hdocument

theorem parse_text_eq_ok_iff {d : Document} {plan : Plan} :
    parse d.text = .ok plan ↔ d.value.plan? = some plan := by
  rw [← parse_text]
  cases parse d.text <;> simp [Except.toOption]

theorem eq_ok_of_toOption {ε : Type} {r : Except ε Plan} {plan : Plan}
    (h : r.toOption = some plan) : r = .ok plan := by
  cases r with
  | error e => cases h
  | ok a => exact congrArg Except.ok (Option.some.inj h)

/-- A text that is read is JSON, and its syntax trees are arrays or objects that hold the plan. -/
theorem tree_of_parse {t : String} {plan : Plan} (h : parse t = .ok plan) :
    (∃ d : Document, d.text = t) ∧ ∀ d : Document, d.text = t →
      ((∃ items, d.value = .list items) ∨ ∃ members, d.value = .object members) ∧
        d.value.plan? = some plan := by
  refine ⟨exists_document h, fun d hd => ?_⟩
  subst hd
  have hplan := parse_text_eq_ok_iff.1 h
  refine ⟨?_, hplan⟩
  cases hvalue : d.value with
  | list items => exact .inl ⟨items, rfl⟩
  | object members => exact .inr ⟨members, rfl⟩
  | _ => rw [hvalue] at hplan; cases hplan

theorem tree_of_parse_deletion :
    (∃ d : Document, d.text = "[[[\"db.a\",\x7b\"actions\":[\"del\\u0065te\"],\"x\":0\x7d]]]") ∧
      ∀ d : Document, d.text = "[[[\"db.a\",\x7b\"actions\":[\"del\\u0065te\"],\"x\":0\x7d]]]" →
        ((∃ items, d.value = .list items) ∨ ∃ members, d.value = .object members) ∧
          d.value.plan? = some ⟨[⟨"db.a", ["delete"]⟩]⟩ :=
  tree_of_parse (eq_ok_of_toOption (by decide +kernel))

end Plan

end DeletionGuard
