import DocScaffold.Host.Yaml.Document

/-!
# Keys of the mappings that are built

Whatever text is read, no two keys of a mapping are equal (`Reader.keepsKeysApart_ofProgram`), as every key
is put.
-/

namespace DocScaffold.Yaml

namespace Value

variable {m : Mapping}

theorem keys_put (k v : Value) (m : Mapping) :
    (put k v m).map (·.1) = m.map (·.1) ∨
      (∀ e ∈ m, e.1.sameKey k = false) ∧ (put k v m).map (·.1) = m.map (·.1) ++ [k] := by
  induction m with
  | nil => exact .inr ⟨fun e he => absurd he (by simp), rfl⟩
  | cons entry rest ih =>
    obtain ⟨k', v'⟩ := entry
    rw [put]
    split
    · exact .inl rfl
    · rename_i hsame
      rcases ih with hkept | ⟨hnew, hkeys⟩
      · exact .inl (by simp [hkept])
      · refine .inr ⟨fun e he => ?_, by simp [hkeys]⟩
        rcases List.mem_cons.1 he with rfl | he
        · simpa using hsame
        · exact hnew e he

theorem keysApart_iff : KeysApart m ↔ (m.map (·.1)).Pairwise fun a b => a.sameKey b = false :=
  (List.pairwise_map (f := Prod.fst) (R := fun a b => sameKey a b = false)).symm

theorem KeysApart.put (h : KeysApart m) (k v : Value) : KeysApart (put k v m) := by
  rw [keysApart_iff] at h ⊢
  rcases keys_put k v m with hkeys | ⟨hnew, hkeys⟩
  · rwa [hkeys]
  · rw [hkeys, List.pairwise_append]
    refine ⟨h, List.pairwise_singleton _ _, fun a ha b hb => ?_⟩
    obtain ⟨e, he, rfl⟩ := List.mem_map.1 ha
    rw [List.mem_singleton.1 hb]
    exact hnew e he

end Value

namespace Document

open Value

/-! ## What is built -/

/-- The mappings that have been built have keys that differ. -/
def Site.KeysApart (s : Site) : Prop := ∀ c ∈ s.built, ∀ m, c.2 = .mapping m → Value.KeysApart m

variable {α β : Type}

/-- A builder keeps the keys apart, and `Q` holds of what it returns. -/
def Yields (b : Builder α) (Q : α → Prop) : Prop :=
  ∀ s a s', s.KeysApart → b s = .ok (a, s') → s'.KeysApart ∧ Q a

namespace Yields

variable {Q : α → Prop} {P : β → Prop}

theorem pure {a : α} (h : Q a) : Yields (Pure.pure a) Q := by
  intro s a' s' hs hrun
  obtain ⟨rfl, rfl⟩ := Prod.mk.inj (Except.ok.inj hrun)
  exact ⟨hs, h⟩

theorem throw (e : Error) : Yields (throw e) Q := by
  intro s a s' _ hrun
  cases hrun

theorem get : Yields MonadState.get fun _ => True := by
  intro s a s' hs hrun
  obtain ⟨rfl, rfl⟩ := Prod.mk.inj (Except.ok.inj hrun)
  exact ⟨hs, trivial⟩

theorem modify {f : Site → Site} (h : ∀ s, s.KeysApart → (f s).KeysApart) :
    Yields (modify f) fun _ => True := by
  intro s a s' hs hrun
  obtain ⟨-, rfl⟩ := Prod.mk.inj (Except.ok.inj hrun)
  exact ⟨h s hs, trivial⟩

theorem lift (x : Except Error α) : Yields (liftM x) fun _ => True := by
  intro s a s' hs hrun
  cases x with
  | error e => cases hrun
  | ok b =>
    obtain ⟨-, rfl⟩ := Prod.mk.inj (Except.ok.inj hrun)
    exact ⟨hs, trivial⟩

theorem bind {b : Builder α} {f : α → Builder β} (hb : Yields b Q) (hf : ∀ a, Q a → Yields (f a) P) :
    Yields (b >>= f) P := by
  intro s c s' hs hrun
  change (b s >>= fun (a, s₁) => f a s₁) = _ at hrun
  cases hstep : b s with
  | error e => simp [hstep, Bind.bind, Except.bind] at hrun
  | ok result =>
    obtain ⟨a, s₁⟩ := result
    rw [hstep] at hrun
    obtain ⟨hs₁, ha⟩ := hb s a s₁ hs hstep
    exact hf a ha s₁ c s' hs₁ hrun

theorem mapM {f : α → Builder β} (h : ∀ a, Yields (f a) P) (xs : List α) :
    Yields (xs.mapM f) fun _ => True := by
  induction xs with
  | nil => exact pure trivial
  | cons x xs ih =>
    rw [List.mapM_cons]
    exact (h x).bind fun _ _ => ih.bind fun _ _ => pure trivial

theorem foldlM {f : β → α → Builder β} (h : ∀ b a, P b → Yields (f b a) P) (xs : List α) {b : β}
    (hb : P b) : Yields (xs.foldlM f b) P := by
  induction xs generalizing b with
  | nil => exact pure hb
  | cons x xs ih =>
    rw [List.foldlM_cons]
    exact (h b x hb).bind fun _ hc => ih hc

end Yields

theorem yields_contentOf (place : Nat) : Yields (contentOf place) fun _ => True := by
  refine .bind .get fun s _ => ?_
  split
  · exact .pure trivial
  · exact .throw _

theorem yields_buildScalar (tag : Tag) (place : Nat) :
    Yields (buildScalar tag place) fun _ => True := by
  refine .bind .get fun s _ => .bind (.lift _) fun content _ => ?_
  refine .bind (yields_contentOf place) fun c _ => ?_
  split
  · exact .throw _
  · exact .lift _

theorem yields_build (place : Nat) : Yields (build place) fun _ => True := by
  refine .bind .get fun s _ => ?_
  split
  · exact .throw _
  · split
    case h_6 => exact yields_buildScalar _ _
    all_goals
      refine .bind (.modify fun s hs => ?_) fun _ _ => .pure trivial
      split <;> exact hs

theorem yields_buildMapping (place : Nat) : Yields (buildMapping place) KeysApart := by
  refine .bind (yields_contentOf place) fun content _ => ?_
  split
  · refine .bind .get fun s _ => ?_
    split
    · exact .throw _
    · refine .bind (.modify fun s hs => hs) fun _ _ => ?_
      refine .foldlM (fun m entry hm => ?_) _ List.Pairwise.nil
      refine .bind (yields_build entry.1) fun key _ => ?_
      have hput : Yields (do return put key (← build entry.2) m) KeysApart :=
        .bind (yields_build entry.2) fun v _ => .pure (hm.put key v)
      dsimp only
      split
      · exact .bind (Q := fun _ => True) (.throw _) fun _ _ => hput
      · exact hput
  · exact .throw _

theorem yields_buildPair (place : Nat) : Yields (buildPair place) fun _ => True := by
  refine .bind (yields_contentOf place) fun content _ => ?_
  split
  · exact .bind (yields_build _) fun _ _ => .bind (yields_build _) fun _ _ => .pure trivial
  · exact .throw _

theorem yields_buildCollection (place : Nat) :
    Yields (buildCollection place) fun c => ∀ m, c = .mapping m → KeysApart m := by
  refine .bind .get fun s _ => .bind (yields_contentOf place) fun content _ => ?_
  split
  · exact .bind (.mapM yields_build _) fun _ _ => .pure fun m hm => absurd hm (by simp)
  · refine .bind (yields_buildMapping place) fun m hm => .pure fun m' hm' => ?_
    exact Collection.mapping.inj hm' ▸ hm
  · exact .bind (yields_buildMapping place) fun _ _ => .pure fun m hm => absurd hm (by simp)
  · exact .bind (.mapM yields_buildPair _) fun _ _ => .pure fun m hm => absurd hm (by simp)
  · exact .throw _

theorem yields_buildFrom (i fuel : Nat) : Yields (buildFrom i fuel) fun _ => True := by
  induction fuel generalizing i with
  | zero => exact .pure trivial
  | succ fuel ih =>
    refine .bind .get fun s _ => ?_
    split
    · exact .pure trivial
    · refine .bind (yields_buildCollection _) fun c hc => ?_
      refine .bind (.modify fun s hs => ?_) fun _ _ => ih _
      intro c' hc'
      rcases List.mem_cons.1 hc' with rfl | hc'
      · exact hc
      · exact hs c' hc'

theorem keysApart_of_ofGraph {g : Graph} {root : Nat} {d : Document} (h : ofGraph g root = .ok d) :
    ∀ c ∈ d.collections, ∀ m, c.2 = .mapping m → KeysApart m := by
  have hbuilder : Yields (do
      let value ← build root
      buildFrom 0 (g.size + 1)
      return value) fun _ => True :=
    .bind (yields_build root) fun _ _ => .bind (yields_buildFrom _ _) fun _ _ => .pure trivial
  rw [ofGraph] at h
  simp only [bind, Except.bind] at h
  split at h
  · exact absurd h (by simp)
  · rename_i result hrun
    obtain rfl := Except.ok.inj h
    exact (hbuilder _ result.1 result.2 (fun c hc => absurd hc (by simp)) hrun).1

/-- The keys of a mapping that a text holds differ. -/
theorem keysApart_of_ofText {s : Text} {d : Document} {v : Value} {m : Mapping} (h : ofText s = .ok d)
    (hm : d.mapping? v = some m) : KeysApart m := by
  have hall : ∀ c ∈ d.collections, ∀ m, c.2 = .mapping m → KeysApart m := by
    rw [ofText] at h
    simp only [bind, Except.bind] at h
    split at h
    · exact absurd h (by simp)
    · split at h
      · exact keysApart_of_ofGraph h
      · exact absurd h (by simp)
  rw [mapping?] at hm
  split at hm
  · rename_i entries hcollection
    obtain rfl := Option.some.inj hm
    cases v with
    | collection place =>
      obtain ⟨c, hfound, hc⟩ := Option.map_eq_some_iff.1 hcollection
      exact hall c (List.mem_of_find?_eq_some hfound) _ hc
    | _ => exact absurd hcollection (by simp [collection?])
  · exact absurd hm (by simp)

end Document

theorem Reader.keepsKeysApart_ofProgram : Reader.ofProgram.KeepsKeysApart := by
  intro s d h v m hm
  refine Document.keysApart_of_ofText (s := s) ?_ hm
  change (Document.ofText s).mapError Error.refusal = .ok d at h
  cases hread : Document.ofText s with
  | error e =>
    rw [hread] at h
    cases h
  | ok d' =>
    rw [hread] at h
    exact congrArg _ (Except.ok.inj h)

end DocScaffold.Yaml
