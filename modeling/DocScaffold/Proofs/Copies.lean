import Mathlib.Data.List.Forall2
import DocScaffold.Yaml.Document

/-!
# The same values at other places

Values of two documents are the same if the places of their collections correspond one to one. Such values
are shown alike (`shown_eq`) and list the same names, although a collection may lie in itself.
-/

namespace DocScaffold.Yaml

theorem cases_of_rel {α β : Type} {Q : α → β → Prop} {a : Option α} {b : Option β}
    (h : Option.Rel Q a b) : (a = none ∧ b = none) ∨ ∃ x y, a = some x ∧ b = some y ∧ Q x y := by
  cases h with
  | none => exact .inl ⟨rfl, rfl⟩
  | some hxy => exact .inr ⟨_, _, rfl, rfl, hxy⟩

variable {R : Nat → Nat → Prop}

/-- Values that differ at most in the places of collections, which are related. -/
inductive Value.Same (R : Nat → Nat → Prop) : Value → Value → Prop
  | scalar {v : Value} (h : v.isKey = true) : Same R v v
  | collection {place place' : Nat} (h : R place place') :
    Same R (.collection place) (.collection place')

/-- Entries with the same key and the same value. -/
def Value.SameEntry (R : Nat → Nat → Prop) (e e' : Value × Value) : Prop :=
  Same R e.1 e'.1 ∧ Same R e.2 e'.2

inductive Collection.Same (R : Nat → Nat → Prop) : Collection → Collection → Prop
  | sequence {items items' : List Value} (h : List.Forall₂ (Value.Same R) items items') :
    Same R (.sequence items) (.sequence items')
  | mapping {m m' : Mapping} (h : List.Forall₂ (Value.SameEntry R) m m') :
    Same R (.mapping m) (.mapping m')
  | pairs {entries entries' : List (Value × Value)}
    (h : List.Forall₂ (Value.SameEntry R) entries entries') : Same R (.pairs entries) (.pairs entries')
  | set {members members' : List Value} (h : List.Forall₂ (Value.Same R) members members') :
    Same R (.set members) (.set members')

theorem Value.Same.eq_text_iff {v v' : Value} (h : Same R v v') (s : Text) :
    v = .text s ↔ v' = .text s := by
  cases h with
  | scalar => rfl
  | collection => simp

theorem Collection.Same.ellipsis_eq {c c' : Collection} (h : Same R c c') :
    Document.ellipsis c = Document.ellipsis c' := by
  cases h <;> rfl

namespace Document

variable {d d' : Document}

/-- Related places are the places of the same collections, one by one. -/
structure Corresponds (d d' : Document) (R : Nat → Nat → Prop) : Prop where
  one_to_one : ∀ {place place' other other'}, R place place' → R other other' →
    (place = other ↔ place' = other')
  same : ∀ {place place'}, R place place' →
    Option.Rel (Collection.Same R) (d.collection? (.collection place))
      (d'.collection? (.collection place'))

/-! ## How values are shown -/

/-- How a collection is shown, if it does not lie in itself. -/
def showCollection (shown : Value → Except Raised Text) : Collection → Except Raised Text
  | .sequence items => do return '[' :: Text.listed (← items.mapM shown) ++ [']']
  | .mapping entries => do
    let parts ← entries.mapM fun (k, v) => do
      return (← shown k) ++ ": ".toList ++ (← shown v)
    return '{' :: Text.listed parts ++ ['}']
  | .pairs entries => do
    let parts ← entries.mapM fun (k, v) => do
      return '(' :: (← shown k) ++ ", ".toList ++ (← shown v) ++ [')']
    return '[' :: Text.listed parts ++ [']']
  | .set [] => .ok "set()".toList
  | .set members => do return '{' :: Text.listed (← members.mapM shown) ++ ['}']

theorem shownIn_collection (d : Document) (around : List Nat) (fuel place : Nat) :
    d.shownIn around (fuel + 1) (.collection place) =
      match d.collection? (.collection place) with
      | none => .ok []
      | some c => if around.contains place then .ok (ellipsis c)
        else showCollection (d.shownIn (place :: around) fuel) c := by
  conv_lhs => unfold shownIn
  cases d.collection? (.collection place) with
  | none => rfl
  | some c =>
    dsimp only
    split
    · rfl
    · cases c with
      | set members =>
        cases members with
        | nil => rfl
        | cons => rfl
      | _ => rfl

theorem mapM_eq_of_forall₂ {α β γ ε : Type} {Q : α → β → Prop} {f : α → Except ε γ}
    {g : β → Except ε γ} {xs : List α} {ys : List β} (h : List.Forall₂ Q xs ys)
    (hfg : ∀ a b, Q a b → f a = g b) : xs.mapM f = ys.mapM g := by
  induction h with
  | nil => rfl
  | cons hab _ ih => rw [List.mapM_cons, List.mapM_cons, hfg _ _ hab, ih]

/-- The same collections are shown alike if the same values are. -/
theorem showCollection_eq {shown shown' : Value → Except Raised Text}
    (hshown : ∀ v v', Value.Same R v v' → shown v = shown' v') {c c' : Collection}
    (h : Collection.Same R c c') : showCollection shown c = showCollection shown' c' := by
  cases h with
  | sequence h =>
    rw [showCollection, showCollection, mapM_eq_of_forall₂ h hshown]
  | mapping h =>
    rw [showCollection, showCollection, mapM_eq_of_forall₂ h]
    rintro ⟨k, v⟩ ⟨k', v'⟩ ⟨hk, hv⟩
    dsimp only
    rw [hshown k k' hk, hshown v v' hv]
  | pairs h =>
    rw [showCollection, showCollection, mapM_eq_of_forall₂ h]
    rintro ⟨k, v⟩ ⟨k', v'⟩ ⟨hk, hv⟩
    dsimp only
    rw [hshown k k' hk, hshown v v' hv]
  | set h =>
    cases h with
    | nil => rfl
    | cons hfirst hrest =>
      rw [showCollection, showCollection, mapM_eq_of_forall₂ (.cons hfirst hrest) hshown] <;> simp

/-- The collections around a value differ, and the depth that is left reaches all others. -/
structure Reaches (d : Document) (around : List Nat) (fuel : Nat) : Prop where
  nodup : around.Nodup
  within : around ⊆ d.collections.map (·.1)
  length_lt : d.collections.length < around.length + fuel

theorem Reaches.ne_zero {around : List Nat} {fuel : Nat} (h : d.Reaches around fuel) : fuel ≠ 0 := by
  rintro rfl
  have hle := h.nodup.length_le_of_subset h.within
  have hlt := h.length_lt
  rw [List.length_map] at hle
  omega

theorem Reaches.cons {around : List Nat} {fuel place : Nat} {c : Collection}
    (h : d.Reaches around (fuel + 1)) (hnew : place ∉ around)
    (hc : d.collection? (.collection place) = some c) : d.Reaches (place :: around) fuel := by
  have hlt := h.length_lt
  refine ⟨List.nodup_cons.2 ⟨hnew, h.nodup⟩, List.cons_subset.2 ⟨?_, h.within⟩, ?_⟩
  · obtain ⟨entry, hfound, -⟩ := Option.map_eq_some_iff.1 hc
    have hplace : entry.1 = place := by simpa using List.find?_some hfound
    exact List.mem_map.2 ⟨entry, List.mem_of_find?_eq_some hfound, hplace⟩
  · rw [List.length_cons]
    omega

theorem mem_iff_of_forall₂ (h : d.Corresponds d' R) {around around' : List Nat}
    (haround : List.Forall₂ R around around') {place place' : Nat} (hplace : R place place') :
    place ∈ around ↔ place' ∈ around' := by
  induction haround with
  | nil => simp
  | cons hfirst _ ih => rw [List.mem_cons, List.mem_cons, h.one_to_one hplace hfirst, ih]

/-- The same values are shown alike, whatever depth is left beyond what is needed. -/
theorem shownIn_eq (h : d.Corresponds d' R) {fuel fuel' : Nat} {around around' : List Nat}
    (haround : List.Forall₂ R around around') (hreaches : d.Reaches around fuel)
    (hreaches' : d'.Reaches around' fuel') {v v' : Value} (hv : Value.Same R v v') :
    d.shownIn around fuel v = d'.shownIn around' fuel' v' := by
  induction fuel generalizing fuel' around around' v v' with
  | zero => exact absurd rfl hreaches.ne_zero
  | succ fuel ih =>
    obtain ⟨fuel', rfl⟩ := Nat.exists_eq_succ_of_ne_zero hreaches'.ne_zero
    cases hv with
    | scalar hkey =>
      cases v with
      | collection place => exact absurd hkey Bool.false_ne_true
      | _ => rfl
    | @collection place place' hplace =>
      rw [shownIn_collection, shownIn_collection]
      rcases cases_of_rel (h.same hplace) with ⟨hc, hc'⟩ | ⟨c, c', hc, hc', hsame⟩
      · rw [hc, hc']
      · rw [hc, hc']
        dsimp only
        have hmem := mem_iff_of_forall₂ h haround hplace
        by_cases hin : place ∈ around
        · rw [List.contains_iff_mem.2 hin, List.contains_iff_mem.2 (hmem.1 hin), if_pos rfl, if_pos rfl,
            hsame.ellipsis_eq]
        · have hin' : place' ∉ around' := fun hmem' => hin (hmem.2 hmem')
          rw [if_neg (by simpa using hin), if_neg (by simpa using hin')]
          exact showCollection_eq (fun w w' hw => ih (.cons hplace haround) (hreaches.cons hin hc)
            (hreaches'.cons hin' hc') hw) hsame

/-- The same values are shown alike. -/
theorem shown_eq (h : d.Corresponds d' R) {v v' : Value} (hv : Value.Same R v v') :
    d.shown v = d'.shown v' := by
  have hreaches : ∀ d : Document, d.Reaches [] (d.collections.length + 1) := by
    intro d
    exact ⟨List.nodup_nil, List.nil_subset _, by simp⟩
  exact shownIn_eq h .nil (hreaches d) (hreaches d') hv

/-! ## What else is read -/

theorem nameOf_eq {v v' : Value} (hv : Value.Same R v v') : nameOf v = nameOf v' := by
  cases hv <;> rfl

/-- The same values list the same names. -/
theorem names_eq (h : d.Corresponds d' R) {v v' : Value} (hv : Value.Same R v v') :
    d.names v = d'.names v' := by
  cases hv with
  | scalar hkey =>
    cases v with
    | collection place => exact absurd hkey Bool.false_ne_true
    | _ => rfl
  | @collection place place' hplace =>
    unfold names
    rcases cases_of_rel (h.same hplace) with ⟨hc, hc'⟩ | ⟨c, c', hc, hc', hsame⟩
    · rw [hc, hc']
    · rw [hc, hc']
      cases hsame with
      | sequence hitems =>
        dsimp only
        rw [mapM_eq_of_forall₂ hitems fun _ _ => nameOf_eq]
      | _ => rfl

/-- The same values are mappings with the same entries, or none. -/
theorem rel_mapping? (h : d.Corresponds d' R) {v v' : Value} (hv : Value.Same R v v') :
    Option.Rel (List.Forall₂ (Value.SameEntry R)) (d.mapping? v) (d'.mapping? v') := by
  cases hv with
  | scalar hkey =>
    cases v with
    | collection place => exact absurd hkey Bool.false_ne_true
    | _ => exact .none
  | @collection place place' hplace =>
    rw [mapping?, mapping?]
    rcases cases_of_rel (h.same hplace) with ⟨hc, hc'⟩ | ⟨c, c', hc, hc', hsame⟩
    · rw [hc, hc']
      exact .none
    · rw [hc, hc']
      cases hsame with
      | mapping hentries => exact .some hentries
      | _ => exact .none

end Document

end DocScaffold.Yaml
