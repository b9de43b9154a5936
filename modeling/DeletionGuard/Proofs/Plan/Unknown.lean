import DeletionGuard.Proofs.Plan.Rendering

/-!
# Members that are not known

A member whose key is no field of the record that its object is read as has no part in the plan. It
may be put anywhere, be taken out or have any other value, in every object that is read as a plan, a
change or a block: the plan stays what it is.
-/

namespace DeletionGuard

open Json

/-! ### Edits -/

/-- The key stands for a string that is none of `names`. -/
def IsUnknown (names : List String) (m : Member Node) : Prop :=
  ∃ key, m.key.value.string? = some key ∧ key ∉ names

/-- One member that is not known is put into an object, taken out of it or given another value. -/
inductive UnknownEdit (names : List String) : Node → Node → Prop
  | insert {members members' : Body (Member Node)} {before after : List (Member Node)}
      {m : Member Node} (old : members.toList = before ++ after)
      (new : members'.toList = before ++ m :: after) (unknown : IsUnknown names m) :
      UnknownEdit names (.object members) (.object members')
  | remove {members members' : Body (Member Node)} {before after : List (Member Node)}
      {m : Member Node} (old : members.toList = before ++ m :: after)
      (new : members'.toList = before ++ after) (unknown : IsUnknown names m) :
      UnknownEdit names (.object members) (.object members')
  | replace {members members' : Body (Member Node)} {before after : List (Member Node)}
      {m : Member Node} {value : Padded Node} (old : members.toList = before ++ m :: after)
      (new : members'.toList = before ++ { m with value } :: after)
      (unknown : IsUnknown names m) : UnknownEdit names (.object members) (.object members')

/-- The value of one field of a record is edited, in an object or in its place in an array. -/
inductive FieldEdit (names : List String) (name : String) (edit : Node → Node → Prop) :
    Node → Node → Prop
  | member {members members' : Body (Member Node)} {before after : List (Member Node)}
      {m : Member Node} {n : Node} (old : members.toList = before ++ m :: after)
      (new : members'.toList =
        before ++ { m with value := { m.value with value := n } } :: after)
      (key : m.key.value.string? = some name) (edited : edit m.value.value n) :
      FieldEdit names name edit (.object members) (.object members')
  | element {items items' : Body (Padded Node)} {before after : List (Padded Node)}
      {x : Padded Node} {n : Node} (old : items.toList = before ++ x :: after)
      (new : items'.toList = before ++ { x with value := n } :: after)
      (place : names[before.length]? = some name) (edited : edit x.value n) :
      FieldEdit names name edit (.list items) (.list items')

/-- One element of a list is edited. -/
inductive ElementEdit (edit : Node → Node → Prop) : Node → Node → Prop
  | element {items items' : Body (Padded Node)} {before after : List (Padded Node)}
      {x : Padded Node} {n : Node} (old : items.toList = before ++ x :: after)
      (new : items'.toList = before ++ { x with value := n } :: after) (edited : edit x.value n) :
      ElementEdit edit (.list items) (.list items')

/-- An edit in the block of a change. -/
abbrev BlockEdit : Node → Node → Prop :=
  UnknownEdit ["actions"]

/-- An edit in a change, of its own members or in its block. -/
inductive ChangeEdit : Node → Node → Prop
  | members {n n' : Node} (edited : UnknownEdit ["address", "change"] n n') : ChangeEdit n n'
  | block {n n' : Node} (edited : FieldEdit ["address", "change"] "change" BlockEdit n n') :
      ChangeEdit n n'

/-- An edit in a plan, of its own members or in one of its changes. -/
inductive PlanEdit : Node → Node → Prop
  | members {n n' : Node} (edited : UnknownEdit ["resource_changes"] n n') : PlanEdit n n'
  | change {n n' : Node}
      (edited : FieldEdit ["resource_changes"] "resource_changes" (ElementEdit ChangeEdit) n n') :
      PlanEdit n n'

/-! ### Records keep their fields -/

variable {names : List String} {name : String} {edit : Node → Node → Prop} {n n' : Node}

def knownFields? (names : List String) (ms : List (Member Node)) :
    Option (List (String × Node)) := do
  let entries ← ms.mapM Member.entry?
  let known := entries.filter (·.1 ∈ names)
  if (known.map (·.1)).Nodup then some known else none

theorem knownFields?_unknown {m : Member Node} (h : IsUnknown names m)
    (before after : List (Member Node)) :
    knownFields? names (before ++ m :: after) = knownFields? names (before ++ after) := by
  obtain ⟨key, hkey, hunknown⟩ := h
  have hentry : m.entry? = some (key, m.value.value) := by rw [Member.entry?, hkey]; rfl
  simp only [knownFields?, List.mapM_append, List.mapM_cons, hentry]
  cases before.mapM Member.entry? with
  | none => rfl
  | some es => cases after.mapM Member.entry? <;> simp [hunknown]

theorem UnknownEdit.fields?_eq (h : UnknownEdit names n n') :
    n.fields? names = n'.fields? names := by
  cases h with
  | @insert members members' before after m hold hnew hunknown =>
    change knownFields? names members.toList = knownFields? names members'.toList
    rw [hold, hnew, knownFields?_unknown hunknown]
  | @remove members members' before after m hold hnew hunknown =>
    change knownFields? names members.toList = knownFields? names members'.toList
    rw [hold, hnew, knownFields?_unknown hunknown]
  | @replace members members' before after m value hold hnew hunknown =>
    change knownFields? names members.toList = knownFields? names members'.toList
    rw [hold, hnew, knownFields?_unknown hunknown]
    exact (knownFields?_unknown (m := { m with value }) hunknown before after).symm

theorem names_split {k : Nat} (h : names[k]? = some name) :
    ∃ before after, names = before ++ name :: after ∧ before.length = k := by
  obtain ⟨hlt, rfl⟩ := List.getElem?_eq_some_iff.1 h
  refine ⟨names.take k, names.drop (k + 1), ?_, List.length_take_of_le (Nat.le_of_lt hlt)⟩
  rw [← List.drop_eq_getElem_cons, List.take_append_drop]

/-- The fields around that of one known member do not depend on its value. -/
theorem exists_knownFields (hname : name ∈ names) (before after : List (Member Node)) :
    ∃ around? : Option (List (String × Node) × List (String × Node)),
      ∀ m v, Member.entry? m = some (name, v) →
        knownFields? names (before ++ m :: after) =
          around?.map fun around => around.1 ++ (name, v) :: around.2 := by
  refine ⟨do
    let es ← before.mapM Member.entry?
    let es' ← after.mapM Member.entry?
    let known := es.filter (·.1 ∈ names)
    let known' := es'.filter (·.1 ∈ names)
    if (known.map (·.1) ++ name :: known'.map (·.1)).Nodup then some (known, known') else none, ?_⟩
  intro m v hentry
  simp only [knownFields?, List.mapM_append, List.mapM_cons, hentry]
  cases before.mapM Member.entry? with
  | none => rfl
  | some es =>
    cases after.mapM Member.entry? with
    | none => rfl
    | some es' =>
      have hfilter : ((name, v) :: es').filter (·.1 ∈ names) =
          (name, v) :: es'.filter (·.1 ∈ names) := List.filter_cons_of_pos (by simpa using hname)
      simp only [Option.bind_eq_bind, Option.bind_some, Option.pure_def, List.filter_append,
        hfilter, List.map_append, List.map_cons]
      split <;> rfl

/-- An edit of a field is an edit of its entry. -/
theorem FieldEdit.exists_fields (h : FieldEdit names name edit n n') (hname : name ∈ names) :
    ∃ (around? : Option (List (String × Node) × List (String × Node))) (v v' : Node), edit v v' ∧
      n.fields? names = around?.map (fun around => around.1 ++ (name, v) :: around.2) ∧
      n'.fields? names = around?.map (fun around => around.1 ++ (name, v') :: around.2) := by
  cases h with
  | @member members members' before after m v' hold hnew hkey hedit =>
    obtain ⟨around?, haround⟩ := exists_knownFields hname before after
    refine ⟨around?, m.value.value, v', hedit, ?_, ?_⟩
    · change knownFields? names members.toList = _
      rw [hold, haround m m.value.value (by rw [Member.entry?, hkey]; rfl)]
    · change knownFields? names members'.toList = _
      rw [hnew, haround _ v' (by rw [Member.entry?, hkey]; rfl)]
  | @element items items' before after x v' hold hnew hplace hedit =>
    obtain ⟨first, last, rfl, hlength⟩ := names_split hplace
    have hlength : first.length = (before.map (·.value)).length := by simpa using hlength
    refine ⟨if before.length + (after.length + 1) ≤ (first ++ name :: last).length then
      some (first.zip (before.map (·.value)), last.zip (after.map (·.value))) else none,
      x.value, v', hedit, ?_, ?_⟩
    · rw [Node.fields?, hold]
      simp only [List.length_append, List.length_cons, List.map_append, List.map_cons,
        List.zip_append hlength, List.zip_cons_cons]
      split <;> rfl
    · rw [Node.fields?, hnew]
      simp only [List.length_append, List.length_cons, List.map_append, List.map_cons,
        List.zip_append hlength, List.zip_cons_cons]
      split <;> rfl

theorem lookup_of_ne {key : String} (h : key ≠ name) (before after : List (String × Node))
    (v : Node) : (before ++ (name, v) :: after).lookup key = (before ++ after).lookup key := by
  have hne : (key == name) = false := beq_false_of_ne h
  rw [List.lookup_append, List.lookup_append, List.lookup_cons, hne]

/-- What is read of a field is the same if the edit changes nothing that is read. -/
theorem fieldOr_edit {α : Type} {read? : Node → Option α} {v v' : Node} (hv : v ≠ .null)
    (hv' : v' ≠ .null) (hread : read? v = read? v') (default : α)
    (before after : List (String × Node)) :
    Node.fieldOr default read? ((before ++ (name, v) :: after).lookup name) =
      Node.fieldOr default read? ((before ++ (name, v') :: after).lookup name) := by
  have hother {v : Node} (hv : v ≠ .null) : Node.fieldOr default read? (some v) = read? v := by
    cases v with
    | null => exact absurd rfl hv
    | _ => rfl
  rw [List.lookup_append, List.lookup_append]
  cases before.lookup name with
  | some n => rfl
  | none => simp [hother hv, hother hv', hread]

/-! ### The plan stays -/

theorem ElementEdit.list?_eq {α : Type} {read? : Node → Option α}
    (hread : ∀ n n', edit n n' → read? n = read? n') (h : ElementEdit edit n n') :
    n.list? read? = n'.list? read? := by
  obtain ⟨hold, hnew, hedit⟩ := h
  rw [Node.list?, Node.list?, hold, hnew]
  simp [hread _ _ hedit]

theorem ChangeEdit.change?_eq (n n' : Node) (h : ChangeEdit n n') : n.change? = n'.change? := by
  cases h with
  | members hedit => rw [Node.change?, Node.change?, hedit.fields?_eq]
  | block hedit =>
    obtain ⟨around?, v, v', hblock, hold, hnew⟩ := hedit.exists_fields (by decide)
    have hactions : v.actions? = v'.actions? := by
      rw [Node.actions?, Node.actions?, hblock.fields?_eq]
    have hv : v ≠ .null := by rintro rfl; cases hblock
    have hv' : v' ≠ .null := by rintro rfl; cases hblock
    rw [Node.change?, Node.change?, hold, hnew]
    cases around? with
    | none => rfl
    | some around =>
      simp only [Option.map_some, Option.bind_eq_bind, Option.bind_some,
        lookup_of_ne (by decide : "address" ≠ "change"), fieldOr_edit hv hv' hactions]

theorem PlanEdit.plan?_eq (h : PlanEdit n n') : n.plan? = n'.plan? := by
  cases h with
  | members hedit => rw [Node.plan?, Node.plan?, hedit.fields?_eq]
  | change hedit =>
    obtain ⟨around?, v, v', hlist, hold, hnew⟩ := hedit.exists_fields (by decide)
    have hchanges := hlist.list?_eq ChangeEdit.change?_eq
    have hv : v ≠ .null := by rintro rfl; cases hlist
    have hv' : v' ≠ .null := by rintro rfl; cases hlist
    rw [Node.plan?, Node.plan?, hold, hnew]
    cases around? with
    | none => rfl
    | some around =>
      simp only [Option.map_some, Option.bind_eq_bind, Option.bind_some,
        fieldOr_edit hv hv' hchanges]

namespace Plan

/-- Whatever is done to a member that is not known, the text is read as the plan that it was. -/
theorem parse_eq_of_planEdit {t : String} {plan : Plan} (h : parse t = .ok plan) :
    (∃ d : Document, d.text = t) ∧
      ∀ (d : Document) (n : Node), d.text = t → PlanEdit d.value n →
        parse (Document.text { d with value := n }) = .ok plan := by
  refine ⟨exists_document h, fun d n hd hedit => ?_⟩
  subst hd
  rw [parse_text_eq_ok_iff] at h ⊢
  rw [← h]
  exact hedit.plan?_eq.symm

/-- What looks like actions, in the block of a change, does not replace them. -/
theorem parse_eq_of_planEdit_insert :
    parse ("\x7b\"resource_changes\":[\x7b\"address\":\"db.a\",\"change\":" ++
      "\x7b\"before\":\x7b\"actions\":[\"no-op\"]\x7d,\"actions\":[\"delete\"]\x7d\x7d]\x7d") =
      .ok ⟨[⟨"db.a", ["delete"]⟩]⟩ := by
  let plan : Plan := ⟨[⟨"db.a", ["delete"]⟩]⟩
  let decoy := objectOf [("actions", listOf stringOf ["no-op"])]
  let block := objectOf [("before", decoy), ("actions", listOf stringOf ["delete"])]
  let change := objectOf [("address", stringOf "db.a"), ("change", block)]
  let tree := objectOf [("resource_changes", .list (bodyOf [bare change]))]
  have hunknown : IsUnknown ["actions"] ⟨bare (spelled "before"), bare decoy⟩ :=
    ⟨"before", by decide, by decide⟩
  have hblock : BlockEdit (objectOf [("actions", listOf stringOf ["delete"])]) block :=
    @UnknownEdit.insert _ _ _ [] _ _ rfl rfl hunknown
  have hchange : ChangeEdit (changeTree ⟨"db.a", ["delete"]⟩) change :=
    .block (@FieldEdit.member _ _ _ _ _ [_] [] _ _ rfl rfl (by decide) hblock)
  have hedit : PlanEdit plan.document.value tree :=
    .change (@FieldEdit.member _ _ _ _ _ [] [] _ _ rfl rfl (by decide)
      (@ElementEdit.element _ _ _ [] [] _ _ rfl rfl hchange))
  have hparse := (parse_eq_of_planEdit plan.parse_document).2 plan.document tree rfl hedit
  refine Eq.trans (congrArg parse ?_) hparse
  decide +kernel

end Plan

end DeletionGuard
