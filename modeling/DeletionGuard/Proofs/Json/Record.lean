import Mathlib.Data.List.Nodup
import Mathlib.Data.List.Perm.Basic
import DeletionGuard.Proofs.Json.Grammar

/-!
# What a syntax tree says

How strings, lists and records are read off a tree. A record is an array of its fields in order, as
far as it goes, or an object with the known fields among its members, each of them once. Fields that
settle different things may be settled in any order.
-/

namespace DeletionGuard.Json

variable {α σ : Type}

/-- The key and the value of a member, unless the key stands for no string. -/
def Member.entry? (m : Member Node) : Option (String × Node) :=
  m.key.value.string?.map (·, m.value.value)

namespace Node

def string? : Node → Option String
  | .string l => l.string?
  | _ => none

/-- The elements of a list, in order, if `item?` reads every one of them. -/
def list? (item? : Node → Option α) : Node → Option (List α)
  | .list items => items.toList.mapM fun x => item? x.value
  | _ => none

/-- The fields that a record gives, by name. Keys stand for strings, and no name occurs twice; an
array is no longer than the names. -/
def fields? (names : List String) : Node → Option (List (String × Node))
  | .list items =>
    if items.toList.length ≤ names.length then
      some (names.zip (items.toList.map (·.value)))
    else
      none
  | .object members => do
    let entries ← members.toList.mapM Member.entry?
    let known := entries.filter (·.1 ∈ names)
    if (known.map (·.1)).Nodup then some known else none
  | _ => none

/-- A field that is missing or `null` has a default, and `read?` reads any other. -/
def fieldOr (default : α) (read? : Node → Option α) : Option Node → Option α
  | none => some default
  | some .null => some default
  | some n => read? n

/-- The change that a field makes to a record, of which `null` makes none. -/
def setting? (read? : Node → Option α) (set : α → σ → σ) : Node → Option (σ → σ)
  | .null => some id
  | n => (read? n).map set

end Node

/-! ### Fields by name -/

theorem lookup_eq_some_iff {entries : List (String × Node)} (h : (entries.map (·.1)).Nodup)
    {name : String} {n : Node} : entries.lookup name = some n ↔ (name, n) ∈ entries := by
  induction entries with
  | nil => simp
  | cons e entries ih =>
    obtain ⟨key, v⟩ := e
    obtain ⟨hkey, hnodup⟩ := List.nodup_cons.1 h
    rw [List.lookup_cons]
    by_cases hname : name = key
    · subst hname
      simp only [beq_self_eq_true, Option.some.injEq, List.mem_cons, Prod.mk.injEq, true_and]
      refine ⟨fun hv => .inl hv.symm, fun hn => hn.elim Eq.symm fun hmem => ?_⟩
      exact absurd (List.mem_map_of_mem hmem) hkey
    · rw [beq_false_of_ne hname]
      simpa [hname] using ih hnodup

/-- Entries with different keys, all of them among `names`, are the entries that the names have. -/
theorem perm_lookups {entries : List (String × Node)} {names : List String} (hnames : names.Nodup)
    (hnodup : (entries.map (·.1)).Nodup) (hknown : ∀ e ∈ entries, e.1 ∈ names) :
    entries.Perm (names.filterMap fun name => (entries.lookup name).map (name, ·)) := by
  refine (List.perm_ext_iff_of_nodup (List.Nodup.of_map _ hnodup) ?_).2 fun e => ?_
  · refine hnames.filterMap fun a b e ha hb => ?_
    simp only [Option.mem_def, Option.map_eq_some_iff] at ha hb
    obtain ⟨_, _, rfl⟩ := ha
    obtain ⟨_, _, hab⟩ := hb
    exact (Prod.mk.inj hab).1.symm
  · obtain ⟨key, n⟩ := e
    simp only [List.mem_filterMap, Option.map_eq_some_iff, lookup_eq_some_iff hnodup,
      Prod.mk.injEq, exists_eq_right_right]
    exact ⟨fun h => ⟨hknown _ h, h⟩, fun h => h.2⟩

/-! ### Settling fields -/

/-- What settling one field after the other makes of `s`. -/
def settle? (change? : String → Node → Option (σ → σ)) (s : σ) (entries : List (String × Node)) :
    Option σ :=
  entries.foldlM (fun s e => (change? e.1 e.2).map (· s)) s

/-- Changes by different fields may be made in either order. -/
def Commute (names : List String) (change? : String → Node → Option (σ → σ)) : Prop :=
  ∀ key ∈ names, ∀ key' ∈ names, key ≠ key' → ∀ {n n' c c'}, change? key n = some c →
    change? key' n' = some c' → ∀ s, c (c' s) = c' (c s)

variable {change? : String → Node → Option (σ → σ)} {entries : List (String × Node)}

theorem settle?_cons (s : σ) (e : String × Node) (entries : List (String × Node)) :
    settle? change? s (e :: entries) =
      (change? e.1 e.2).bind fun c => settle? change? (c s) entries := by
  rw [settle?, List.foldlM_cons]
  cases change? e.1 e.2 <;> rfl

/-- Fields that settle different things may be settled in any order. -/
theorem settle?_perm {names : List String} (hcommute : Commute names change?)
    {entries' : List (String × Node)} (hperm : entries.Perm entries')
    (hnodup : (entries.map (·.1)).Nodup) (hknown : ∀ e ∈ entries, e.1 ∈ names) (s : σ) :
    settle? change? s entries = settle? change? s entries' := by
  induction hperm generalizing s with
  | nil => rfl
  | cons e hperm ih =>
    rw [settle?_cons, settle?_cons]
    congr
    funext c
    exact ih (List.nodup_cons.1 hnodup).2 (List.forall_mem_cons.1 hknown).2 (c s)
  | swap e e' entries =>
    obtain ⟨hmem', hmem, -⟩ := by simpa only [List.forall_mem_cons] using hknown
    have hne : e'.1 ≠ e.1 := by
      intro heq
      simp [heq] at hnodup
    rw [settle?_cons, settle?_cons]
    simp only [settle?_cons]
    cases he : change? e.1 e.2 with
    | none => cases change? e'.1 e'.2 <;> rfl
    | some c =>
      cases he' : change? e'.1 e'.2 with
      | none => rfl
      | some c' => simp [hcommute _ hmem' _ hmem hne he' he]
  | trans hperm _ ih ih' =>
    rw [ih hnodup hknown s, ih' ((hperm.map _).nodup_iff.1 hnodup)
      (fun e he => hknown e (hperm.mem_iff.2 he)) s]

theorem settle?_eq_foldlM {names : List String} (hcommute : Commute names change?)
    (hnames : names.Nodup) (hnodup : (entries.map (·.1)).Nodup)
    (hknown : ∀ e ∈ entries, e.1 ∈ names) (s : σ) :
    settle? change? s entries = names.foldlM (fun s name =>
      match entries.lookup name with
      | none => some s
      | some n => (change? name n).map (· s)) s := by
  rw [settle?_perm hcommute (perm_lookups hnames hnodup hknown) hnodup hknown]
  clear hcommute hnames hknown
  induction names generalizing s with
  | nil => rfl
  | cons name names ih =>
    rw [List.filterMap_cons, List.foldlM_cons]
    cases entries.lookup name with
    | none => exact ih s
    | some n =>
      simp only [Option.map_some, settle?_cons]
      cases change? name n with
      | none => rfl
      | some c => exact ih (c s)

private theorem map_fst_zip_sublist {α β : Type} (as : List α) (bs : List β) :
    ((as.zip bs).map (·.1)).Sublist as := by
  induction as generalizing bs with
  | nil => exact .slnil
  | cons a as ih =>
    cases bs with
    | nil => exact List.nil_sublist _
    | cons b bs => exact (ih bs).cons_cons a

/-- The fields of a record have different names, all of them known. -/
theorem Node.fields?_spec {names : List String} (hnames : names.Nodup) {n : Node}
    (h : n.fields? names = some entries) :
    (entries.map (·.1)).Nodup ∧ ∀ e ∈ entries, e.1 ∈ names := by
  cases n with
  | list items =>
    simp only [fields?, Option.ite_none_right_eq_some, Option.some.injEq] at h
    obtain ⟨hle, rfl⟩ := h
    have hkeys := map_fst_zip_sublist names (items.toList.map (·.value))
    exact ⟨hnames.sublist hkeys, fun e he => hkeys.subset (List.mem_map_of_mem he)⟩
  | object members =>
    simp only [fields?, Option.bind_eq_bind, Option.bind_eq_some_iff,
      Option.ite_none_right_eq_some, Option.some.injEq] at h
    obtain ⟨all, -, hnodup, rfl⟩ := h
    exact ⟨hnodup, fun e he => by simpa using (List.mem_filter.1 he).2⟩
  | _ => cases h

end DeletionGuard.Json
