import DocScaffold.Token.Lexeme

/-!
# Cutting a longer text

Every rule looks at a text from its front. What it takes does not depend on the text behind its stop,
so a text that is divided between two lexemes is cut into the same lexemes part by part
(`lexemes_of_append`). Nothing is said here about a text that is divided inside a lexeme.
-/

namespace DocScaffold

namespace Text

/-- What the cut takes is taken again in front of any other text. -/
def IsExact (cut : Text → Cut) : Prop :=
  ∀ s a b, cut s = some (a, b) → ∀ t, cut (a ++ t) = some (a, t)

/-- The cut takes the same when the end of the text behind its stop is dropped. -/
def Narrows (cut : Text → Cut) : Prop :=
  ∀ a r t, cut (a ++ (r ++ t)) = some (a, r ++ t) → cut (a ++ r) = some (a, r)

/-- Where the cut applies, it applies in every longer text. -/
def Persists (cut : Text → Cut) : Prop := ∀ s t, (cut s).isSome → (cut (s ++ t)).isSome

@[simp] theorem Cut.after_none (head : Text) : Cut.after head none = none := rfl

@[simp] theorem Cut.after_some (head a b : Text) :
    Cut.after head (some (a, b)) = some (head ++ a, b) := rfl

@[simp] theorem Cut.isSome_after (head : Text) (cut : Cut) :
    (Cut.after head cut).isSome = cut.isSome := by
  cases cut <;> rfl

@[simp] theorem Cut.after_eq_none {head : Text} {cut : Cut} :
    Cut.after head cut = none ↔ cut = none := by
  cases cut <;> simp [Cut.after]

theorem IsExact.narrows {cut : Text → Cut} (h : IsExact cut) : Narrows cut :=
  fun a r t hcut => h (a ++ (r ++ t)) a (r ++ t) hcut r

theorem IsExact.persists {cut : Text → Cut} (h : IsExact cut) (hcut : IsCut cut) :
    Persists cut := by
  intro s t hs
  obtain ⟨⟨a, b⟩, hab⟩ := Option.isSome_iff_exists.1 hs
  have happ := (hcut s a b hab).2
  rw [← happ, List.append_assoc, h s a b hab]
  rfl

/-! ## Runs of characters -/

theorem takeWhile_append_of_head {p : Char → Bool} {a t : Text} (ha : ∀ c ∈ a, p c = true)
    (ht : ∀ c ∈ t.head?, p c = false) : (a ++ t).takeWhile p = a := by
  rw [List.takeWhile_append_of_pos ha]
  cases t with
  | nil => simp
  | cons c t => simp [ht c (by simp)]

theorem dropWhile_append_of_head {p : Char → Bool} {a t : Text} (ha : ∀ c ∈ a, p c = true)
    (ht : ∀ c ∈ t.head?, p c = false) : (a ++ t).dropWhile p = t := by
  rw [List.dropWhile_append_of_pos ha]
  cases t with
  | nil => simp
  | cons c t => simp [ht c (by simp)]

theorem of_mem_takeWhile (p : Char → Bool) {s : Text} {c : Char} (h : c ∈ s.takeWhile p) :
    p c = true :=
  List.all_eq_true.1 List.all_takeWhile c h

theorem head?_dropWhile (p : Char → Bool) {s : Text} {c : Char} (h : c ∈ (s.dropWhile p).head?) :
    p c = false := by
  have := List.head?_dropWhile_not p s
  rw [Option.mem_def.1 h] at this
  exact this

/-- A run ends in front of the first character that does not belong to it. -/
theorem cutRun_eq_some {first more : Char → Bool} {s a b : Text}
    (h : cutRun first more s = some (a, b)) :
    (∃ c w, a = c :: w ∧ first c = true ∧ ∀ d ∈ w, more d = true) ∧
      ∀ c ∈ b.head?, more c = false := by
  unfold cutRun at h
  split at h
  · simp at h
  · rename_i c rest
    split at h
    · rename_i hc
      simp only [Option.some.injEq, Prod.mk.injEq] at h
      obtain ⟨rfl, rfl⟩ := h
      exact ⟨⟨c, _, rfl, hc, fun d hd => of_mem_takeWhile _ hd⟩,
        fun d hd => head?_dropWhile _ hd⟩
    · simp at h

theorem cutRun_append {first more : Char → Bool} {c : Char} {w t : Text} (hc : first c = true)
    (hw : ∀ d ∈ w, more d = true) (ht : ∀ d ∈ t.head?, more d = false) :
    cutRun first more (c :: w ++ t) = some (c :: w, t) := by
  rw [List.cons_append, cutRun, if_pos hc, takeWhile_append_of_head hw ht,
    dropWhile_append_of_head hw ht]

theorem head?_of_append {r t : Text} {p : Char → Bool} (h : ∀ c ∈ (r ++ t).head?, p c = false) :
    ∀ c ∈ r.head?, p c = false := by
  cases r with
  | nil => simp
  | cons d r => simpa using h

theorem narrows_cutRun (first more : Char → Bool) : Narrows (cutRun first more) := by
  intro a r t h
  obtain ⟨⟨c, w, rfl, hc, hw⟩, hstop⟩ := cutRun_eq_some h
  exact cutRun_append hc hw (head?_of_append hstop)

theorem isSome_cutRun (first more : Char → Bool) (s : Text) :
    (cutRun first more s).isSome = s.head?.any first := by
  cases s with
  | nil => rfl
  | cons c s =>
    simp only [cutRun, List.head?_cons, Option.any_some]
    split <;> simp_all

/-- Where the first character decides whether a cut applies, the text behind it does not. -/
theorem isSome_append_of_head {cut : Text → Cut} {p : Char → Bool}
    (h : ∀ s, (cut s).isSome = s.head?.any p) {s : Text} (hs : s ≠ []) (t : Text) :
    (cut (s ++ t)).isSome = (cut s).isSome := by
  obtain ⟨c, u, rfl⟩ := List.exists_cons_of_ne_nil hs
  rw [h, h, List.cons_append, List.head?_cons, List.head?_cons]

theorem persists_of_head {cut : Text → Cut} {p : Char → Bool}
    (h : ∀ s, (cut s).isSome = s.head?.any p) : Persists cut := by
  intro s t hs
  have hne : s ≠ [] := by
    rintro rfl
    simp [h] at hs
  rwa [isSome_append_of_head h hne]

theorem persists_cutRun (first more : Char → Bool) : Persists (cutRun first more) :=
  persists_of_head (isSome_cutRun first more)

/-! ## Comments -/

theorem narrows_cutLineComment : Narrows cutLineComment := by
  intro a r t h
  obtain ⟨rest, -, rfl, hdrop⟩ := cutLineComment_eq_some h
  have hstop : ∀ c ∈ r.head?, (c != '\n') = false := by
    apply head?_of_append
    rw [hdrop]
    exact fun c hc => head?_dropWhile (· != '\n') hc
  have hrun : ∀ c ∈ rest.takeWhile (· != '\n'), (c != '\n') = true :=
    fun c hc => of_mem_takeWhile (· != '\n') hc
  rw [List.cons_append, List.cons_append, cutLineComment, takeWhile_append_of_head hrun hstop,
    dropWhile_append_of_head hrun hstop]

theorem persists_cutLineComment : Persists cutLineComment := by
  intro s t h
  obtain ⟨⟨a, b⟩, hab⟩ := Option.isSome_iff_exists.1 h
  obtain ⟨rest, rfl, -⟩ := cutLineComment_eq_some hab
  rfl

theorem length_mark_le {mark s a b : Text} (h : cutThrough mark s = some (a, b)) :
    mark.length ≤ a.length := by
  induction s generalizing a with
  | nil =>
    unfold cutThrough at h
    split at h <;> simp_all
  | cons c rest ih =>
    unfold cutThrough at h
    split at h
    · simp only [Option.some.injEq, Prod.mk.injEq] at h
      exact Nat.le_of_eq (congrArg List.length h.1)
    · obtain ⟨a', h', rfl⟩ := Cut.after_eq_some h
      have := ih h'
      simp only [List.cons_append, List.nil_append, List.length_cons]
      omega

/-- The first mark of a text stays the first when the text behind it changes, since no mark can begin
earlier and reach further. -/
theorem isExact_cutThrough (mark : Text) : IsExact (cutThrough mark) := by
  intro s
  induction s with
  | nil =>
    intro a b h t
    unfold cutThrough at h
    split at h
    · simp only [Option.some.injEq, Prod.mk.injEq] at h
      obtain ⟨rfl, rfl⟩ := h
      cases t <;> simp_all [cutThrough]
    · simp at h
  | cons c rest ih =>
    intro a b h t
    rw [cutThrough] at h
    split at h
    · simp only [Option.some.injEq, Prod.mk.injEq] at h
      obtain ⟨rfl, -⟩ := h
      cases mark with
      | nil => cases t <;> simp [cutThrough]
      | cons m mark =>
        rw [List.cons_append, cutThrough, if_pos (by simp)]
        simp
    · rename_i hp
      obtain ⟨a', h', rfl⟩ := Cut.after_eq_some h
      have hnot : ¬ mark.isPrefixOf (c :: (a' ++ t)) = true := by
        intro hpre
        apply hp
        have hle := length_mark_le h'
        rw [List.isPrefixOf_iff_prefix] at hpre ⊢
        rw [← append_of_cutThrough h', ← List.cons_append]
        rw [← List.cons_append] at hpre
        have hpre' : mark <+: c :: a' :=
          List.prefix_of_prefix_length_le hpre (List.prefix_append _ _) (by simp; omega)
        exact hpre'.trans (List.prefix_append _ _)
      rw [List.cons_append, List.nil_append, List.cons_append, cutThrough, if_neg hnot, ih a' b h' t]
      rfl

/-- What goes through to a mark holds it at its end alone. -/
theorem exists_of_cutThrough {mark s a b : Text} (hmark : mark ≠ [])
    (h : cutThrough mark s = some (a, b)) : ∃ w, a = w ++ mark ∧ ¬ mark <:+: w := by
  induction s generalizing a with
  | nil => simp [cutThrough, hmark] at h
  | cons c rest ih =>
    rw [cutThrough] at h
    split at h
    · obtain ⟨rfl, -⟩ := Prod.mk.inj (Option.some.inj h)
      exact ⟨[], rfl, by simpa using hmark⟩
    · rename_i hprefix
      obtain ⟨a', h', rfl⟩ := Cut.after_eq_some h
      obtain ⟨w, rfl, hw⟩ := ih h'
      refine ⟨c :: w, rfl, fun hinfix => ?_⟩
      rcases List.infix_cons_iff.1 hinfix with hhead | htail
      · apply hprefix
        rw [List.isPrefixOf_iff_prefix, ← append_of_cutThrough h', List.append_assoc]
        exact hhead.trans (List.prefix_append (c :: w) _)
      · exact hw htail

theorem isExact_cutBlockComment : IsExact cutBlockComment := by
  intro s a b h t
  obtain ⟨rest, body, -, hbody, rfl⟩ := cutBlockComment_eq_some h
  simp [cutBlockComment, isExact_cutThrough _ _ _ _ hbody t]

/-! ## Literals -/

/-- The hashes that a text begins with, and what follows them. -/
theorem exists_hashes (s : Text) :
    ∃ hashes tail, s = hashes ++ tail ∧ (∀ c ∈ hashes, c = '#') ∧ ∀ c ∈ tail.head?, c ≠ '#' := by
  refine ⟨s.takeWhile (· == '#'), s.dropWhile (· == '#'), List.takeWhile_append_dropWhile.symm,
    fun c hc => ?_, fun c hc => ?_⟩
  · exact beq_iff_eq.1 (of_mem_takeWhile (· == '#') hc)
  · exact beq_eq_false_iff_ne.1 (head?_dropWhile (· == '#') hc)

theorem cutRawString_hashes {hashes : Text} (body : Text) (h : ∀ c ∈ hashes, c = '#') :
    cutRawString ('r' :: (hashes ++ '"' :: body)) =
      (cutThrough ('"' :: hashes) body).after ('r' :: hashes ++ ['"']) := by
  have hrun : ∀ c ∈ hashes, (c == '#') = true := fun c hc => by simp [h c hc]
  have hstop : ∀ c ∈ ('"' :: body).head?, (c == '#') = false := by simp
  rw [cutRawString, takeWhile_append_of_head hrun hstop, dropWhile_append_of_head hrun hstop]
  rfl

theorem cutRawString_of_no_quote {hashes tail : Text} (h : ∀ c ∈ hashes, c = '#')
    (htail : ∀ c ∈ tail.head?, c ≠ '#' ∧ c ≠ '"') : cutRawString ('r' :: (hashes ++ tail)) = none := by
  have hrun : ∀ c ∈ hashes, (c == '#') = true := fun c hc => by simp [h c hc]
  have hstop : ∀ c ∈ tail.head?, (c == '#') = false := fun c hc => by simp [(htail c hc).1]
  rw [cutRawString, takeWhile_append_of_head hrun hstop, dropWhile_append_of_head hrun hstop]
  cases tail with
  | nil => rfl
  | cons c tail => simp [(htail c rfl).2]

theorem isExact_cutRawString : IsExact cutRawString := by
  intro s a b h t
  obtain ⟨hashes, rest, body, hhashes, -, hbody, rfl⟩ := cutRawString_eq_some h
  have htext : 'r' :: (hashes ++ '"' :: body) ++ t = 'r' :: (hashes ++ '"' :: (body ++ t)) := by simp
  rw [htext, cutRawString_hashes _ hhashes, isExact_cutThrough _ _ _ _ hbody t, Cut.after_some]
  simp

theorem isExact_cutQuoted : IsExact cutQuoted := by
  intro s
  fun_induction cutQuoted s with
  | case1 => simp
  | case2 rest =>
    intro a b h t
    simp only [Option.some.injEq, Prod.mk.injEq] at h
    obtain ⟨rfl, rfl⟩ := h
    simp [cutQuoted]
  | case3 => simp
  | case4 c rest ih =>
    intro a b h t
    obtain ⟨a', h', rfl⟩ := Cut.after_eq_some h
    simp [cutQuoted, ih a' b h' t]
  | case5 c rest h1 h2 h3 ih =>
    intro a b h t
    obtain ⟨a', h', rfl⟩ := Cut.after_eq_some h
    have hc : c ≠ '\\' := by
      intro hc
      cases rest with
      | nil => exact h2 hc rfl
      | cons d rest => exact h3 d rest hc rfl
    rw [List.cons_append, List.nil_append, List.cons_append,
      cutQuoted.eq_5 _ _ h1 (fun h _ => hc h) (fun _ _ h _ => hc h), ih a' b h' t]
    rfl

theorem isExact_cutString : IsExact cutString := by
  intro s a b h t
  obtain ⟨rest, body, -, hbody, rfl⟩ := cutString_eq_some h
  simp [cutString, isExact_cutQuoted _ _ _ hbody t]

theorem isExact_cutChar : IsExact cutChar := by
  intro s a b h t
  obtain ⟨-, ⟨c, rfl⟩ | ⟨c, hback, hquote, rfl⟩⟩ := cutChar_eq_some h
  · rfl
  · simp [cutChar, hback, hquote]

/-- What holds of the literals that `cut` finds, and stays true behind the mark of a byte literal. -/
theorem of_cutByte {cut : Text → Cut} {P : Text → Prop} (hmark : ∀ a, P a → P ('b' :: a))
    (hcut : ∀ s a b, cut s = some (a, b) → P a) {s a b : Text} (h : cutByte cut s = some (a, b)) :
    P a := by
  rcases cutByte_eq_some h with ⟨rest, body, -, hbody, rfl⟩ | ⟨-, hbody⟩
  · exact hmark body (hcut _ _ _ hbody)
  · exact hcut _ _ _ hbody

theorem isExact_cutByte {cut : Text → Cut} (h : IsExact cut) (hcut : IsCut cut) :
    IsExact (cutByte cut) := by
  intro s a b hs t
  rcases cutByte_eq_some hs with ⟨rest, body, -, hbody, rfl⟩ | ⟨hb, hs⟩
  · simp [cutByte, h _ _ _ hbody t]
  · obtain ⟨hne, rfl⟩ := hcut _ _ _ hs
    obtain ⟨c, a, rfl⟩ := List.exists_cons_of_ne_nil hne
    have hc : c ≠ 'b' := by
      rintro rfl
      exact hb (a ++ b) rfl
    rw [List.cons_append, cutByte.eq_2 _ _ (by simp [hc]), ← List.cons_append, h _ _ _ hs t]

/-! ## Words and signs -/

theorem narrows_cutName : Narrows cutName := narrows_cutRun _ _

theorem narrows_cutLifetime : Narrows cutLifetime := by
  intro a r t h
  obtain ⟨rest, name, -, hname, rfl⟩ := cutLifetime_eq_some h
  obtain rfl := (isCut_cutRun _ _ _ _ _ hname).2
  simp [cutLifetime, narrows_cutName name r t hname]

theorem persists_cutLifetime : Persists cutLifetime := by
  intro s t h
  obtain ⟨⟨a, b⟩, hab⟩ := Option.isSome_iff_exists.1 h
  obtain ⟨rest, name, rfl, hname, -⟩ := cutLifetime_eq_some hab
  rw [List.cons_append, cutLifetime, Cut.isSome_after]
  exact persists_cutRun _ _ rest t (Option.isSome_iff_exists.2 ⟨_, hname⟩)

theorem cutIdent_of_not_raw {s : Text} (h : ∀ rest, s ≠ 'r' :: '#' :: rest) :
    cutIdent s = cutName s := by
  rw [cutIdent.eq_2]
  exact fun rest hrest => h rest hrest

theorem narrows_cutIdent : Narrows cutIdent := by
  intro a r t h
  unfold cutIdent at h
  split at h
  · rename_i rest hs
    rcases Option.or_eq_some_iff.1 h with h | ⟨hnone, h⟩
    · obtain ⟨a', h', rfl⟩ := Cut.after_eq_some h
      have hrest : rest = a' ++ (r ++ t) := (isCut_cutRun _ _ _ _ _ h').2.symm
      subst hrest
      simp [cutIdent, narrows_cutName a' r t h']
    · have hname := narrows_cutName a r t (hs ▸ h)
      by_cases hraw : ∃ rest', a ++ r = 'r' :: '#' :: rest'
      · obtain ⟨rest', hrest'⟩ := hraw
        have hlong : 'r' :: '#' :: rest = 'r' :: '#' :: (rest' ++ t) := by
          rw [← hs, ← List.append_assoc, hrest']
          rfl
        have hshort : cutName rest' = none := by
          cases hc : cutName rest' with
          | none => rfl
          | some p =>
            have := persists_cutRun isNameStart isWord rest' t (Option.isSome_iff_exists.2 ⟨p, hc⟩)
            simp only [List.cons.injEq, true_and] at hlong
            rw [← hlong] at this
            obtain ⟨q, hq⟩ := Option.isSome_iff_exists.1 this
            rw [cutName, hq] at hnone
            simp [Cut.after] at hnone
        rw [hrest', cutIdent, hshort]
        simpa [hrest'] using hname
      · rw [cutIdent_of_not_raw (fun rest' h' => hraw ⟨rest', h'⟩)]
        exact hname
  · rename_i hs
    rw [cutIdent_of_not_raw, narrows_cutName a r t h]
    intro rest hrest
    exact hs (rest ++ t) (by rw [← List.append_assoc, hrest]; rfl)

theorem isSome_cutIdent (s : Text) : (cutIdent s).isSome = s.head?.any isNameStart := by
  unfold cutIdent
  split
  · have hr : isNameStart 'r' = true := by decide
    simp [cutName, isSome_cutRun, hr]
  · exact isSome_cutRun _ _ _

theorem persists_cutIdent : Persists cutIdent := persists_of_head isSome_cutIdent

theorem narrows_cutPunct : Narrows cutPunct := by
  intro a r t h
  unfold cutPunct at h
  split at h
  case h_7 c rest h1 h2 h3 h4 h5 hs =>
    split at h
    · simp at h
    · rename_i hc
      simp only [Option.some.injEq, Prod.mk.injEq] at h
      obtain ⟨rfl, rfl⟩ := h
      -- A compound sign at the front of the shorter text would stand in the longer one as well.
      rw [List.singleton_append, cutPunct.eq_7, if_neg hc]
      · exact fun u hc hr => h1 (u ++ t) hc (by simp [hr])
      · exact fun u hc hr => h2 (u ++ t) hc (by simp [hr])
      · exact fun u hc hr => h3 (u ++ t) hc (by simp [hr])
      · exact fun u hc hr => h4 (u ++ t) hc (by simp [hr])
      · exact fun u hc hr => h5 (u ++ t) hc (by simp [hr])
  case h_6 rest h1 hs =>
    simp only [Option.some.injEq, Prod.mk.injEq] at h
    obtain ⟨rfl, rfl⟩ := h
    rw [List.cons_append, List.singleton_append, cutPunct.eq_6]
    exact fun u hr => h1 (u ++ t) (by simp [hr])
  all_goals simp_all
  all_goals obtain ⟨rfl, rfl⟩ := h
  all_goals simp [cutPunct]

theorem isSome_cutPunct (s : Text) :
    (cutPunct s).isSome = s.head?.any fun c => !(isBlank c || isWord c) := by
  have hsigns : ['-', '=', ':', '.'].all (fun c => !(isBlank c || isWord c)) = true := by decide
  fun_cases cutPunct s with
  | case7 c rest h1 h2 h3 h4 h5 hc | case8 c rest h1 h2 h3 h4 h5 hc =>
    rw [List.head?_cons, Option.any_some]
    cases hv : isBlank c || isWord c <;> simp [hv] at hc ⊢
  | _ => simp_all

theorem persists_cutPunct : Persists cutPunct := persists_of_head isSome_cutPunct

end Text

/-! ## Lexemes -/

namespace Lexeme

open Text

theorem narrows_of_mem_rules {rule : Kind × (Text → Cut)} (h : rule ∈ rules) : Narrows rule.2 := by
  simp only [rules, List.mem_cons, List.not_mem_nil, or_false] at h
  rcases h with rfl | rfl | rfl | rfl | rfl | rfl | rfl | rfl | rfl | rfl | rfl
  · exact narrows_cutRun _ _
  · exact narrows_cutLineComment
  · exact isExact_cutBlockComment.narrows
  · exact (isExact_cutByte isExact_cutRawString isCut_cutRawString).narrows
  · exact (isExact_cutByte isExact_cutString isCut_cutString).narrows
  · exact (isExact_cutByte isExact_cutChar isCut_cutChar).narrows
  · exact narrows_cutLifetime
  · exact narrows_cutIdent
  · exact narrows_cutRun _ _
  · exact narrows_cutPunct
  · exact narrows_cutRun _ _

theorem persists_of_mem_rules {rule : Kind × (Text → Cut)} (h : rule ∈ rules) :
    Persists rule.2 := by
  have hcut := isCut_of_mem_rules h
  simp only [rules, List.mem_cons, List.not_mem_nil, or_false] at h
  rcases h with rfl | rfl | rfl | rfl | rfl | rfl | rfl | rfl | rfl | rfl | rfl
  · exact persists_cutRun _ _
  · exact persists_cutLineComment
  · exact isExact_cutBlockComment.persists hcut
  · exact (isExact_cutByte isExact_cutRawString isCut_cutRawString).persists hcut
  · exact (isExact_cutByte isExact_cutString isCut_cutString).persists hcut
  · exact (isExact_cutByte isExact_cutChar isCut_cutChar).persists hcut
  · exact persists_cutLifetime
  · exact persists_cutIdent
  · exact persists_cutRun _ _
  · exact persists_cutPunct
  · exact persists_cutRun _ _

/-- The lexeme that a rule cuts off, and the text behind it. -/
def cutBy (s : Text) (rule : Kind × (Text → Cut)) : Option (Lexeme × Text) :=
  (rule.2 s).map fun p => (⟨rule.1, p.1⟩, p.2)

theorem first?_eq (s : Text) : first? s = rules.findSome? (cutBy s) := rfl

/-- When two texts are cut alike by every rule, so are their first lexemes. -/
theorem first?_map {s s' : Text} (f g : Text → Text)
    (h : ∀ rule ∈ rules, rule.2 s' = (rule.2 s).map fun p => (f p.1, g p.2)) :
    first? s' = (first? s).map fun p => (⟨p.1.kind, f p.1.text⟩, g p.2) := by
  rw [first?_eq, first?_eq]
  generalize rules = rs at h
  induction rs with
  | nil => rfl
  | cons rule rs ih =>
    rw [List.findSome?_cons, List.findSome?_cons, ih fun other hother => h other (by simp [hother]),
      cutBy, cutBy, h rule (by simp)]
    cases rule.2 s <;> rfl

/-- The rule that cuts off a lexeme. -/
theorem exists_rule {s rest : Text} {l : Lexeme} (h : first? s = some (l, rest)) :
    ∃ rule ∈ rules, rule.1 = l.kind ∧ rule.2 s = some (l.text, rest) := by
  obtain ⟨rule, hmem, hcut⟩ := List.exists_of_findSome?_eq_some h
  obtain ⟨⟨a, b⟩, hp, hl⟩ := Option.map_eq_some_iff.1 hcut
  simp only [Prod.mk.injEq] at hl
  obtain ⟨rfl, rfl⟩ := hl
  exact ⟨rule, hmem, rfl, hp⟩

/-- A first lexeme, by the rule that cuts it off. -/
inductive IsFirst (s rest : Text) : Lexeme → Prop
  | blank {a : Text} (hcut : cutRun isBlank isBlank s = some (a, rest)) : IsFirst s rest ⟨.blank, a⟩
  | lineComment {a : Text} (hcut : cutLineComment s = some (a, rest)) :
      IsFirst s rest ⟨.lineComment, a⟩
  | blockComment {a : Text} (hcut : cutBlockComment s = some (a, rest)) :
      IsFirst s rest ⟨.blockComment, a⟩
  | rawString {a : Text} (hcut : cutByte cutRawString s = some (a, rest)) :
      IsFirst s rest ⟨.token .string, a⟩
  | string {a : Text} (hcut : cutByte cutString s = some (a, rest)) :
      IsFirst s rest ⟨.token .string, a⟩
  | char {a : Text} (hcut : cutByte cutChar s = some (a, rest)) : IsFirst s rest ⟨.token .char, a⟩
  | lifetime {a : Text} (hcut : cutLifetime s = some (a, rest)) :
      IsFirst s rest ⟨.token .lifetime, a⟩
  | ident {a : Text} (hcut : cutIdent s = some (a, rest)) : IsFirst s rest ⟨.token .ident, a⟩
  | number {a : Text} (hcut : cutRun isDigit isWord s = some (a, rest)) :
      IsFirst s rest ⟨.token .number, a⟩
  | punct {a : Text} (hcut : cutPunct s = some (a, rest)) : IsFirst s rest ⟨.token .punct, a⟩
  | stray {c : Char} (hs : s = c :: rest) : IsFirst s rest ⟨.stray, [c]⟩

theorem isFirst_of_first? {s rest : Text} {l : Lexeme} (h : first? s = some (l, rest)) :
    IsFirst s rest l := by
  obtain ⟨rule, hmem, hkind, hcut⟩ := exists_rule h
  obtain ⟨kind, text⟩ := l
  simp only [rules, List.mem_cons, List.not_mem_nil, or_false] at hmem
  dsimp only at hkind hcut
  rcases hmem with rfl | rfl | rfl | rfl | rfl | rfl | rfl | rfl | rfl | rfl | rfl <;> subst hkind
  · exact .blank hcut
  · exact .lineComment hcut
  · exact .blockComment hcut
  · exact .rawString hcut
  · exact .string hcut
  · exact .char hcut
  · exact .lifetime hcut
  · exact .ident hcut
  · exact .number hcut
  · exact .punct hcut
  · -- The last rule takes one character, whatever it is.
    cases s with
    | nil => simp [cutRun] at hcut
    | cons c s =>
      have htail : s.takeWhile (fun _ => false) = [] ∧ s.dropWhile (fun _ => false) = s := by
        cases s <;> exact ⟨rfl, rfl⟩
      simp only [cutRun, if_true, htail.1, htail.2, Option.some.injEq, Prod.mk.injEq] at hcut
      obtain ⟨rfl, rfl⟩ := hcut
      exact .stray rfl

/-- Another text begins with the same lexeme when the rules that do not apply to this one do not apply
to the other either, and the rule that cuts the lexeme off does so again. -/
theorem first?_transfer {s s' rest rest' : Text} {l : Lexeme}
    (hnone : ∀ rule ∈ rules, rule.2 s = none → rule.2 s' = none)
    (hsome : ∀ rule ∈ rules, rule.1 = l.kind → rule.2 s = some (l.text, rest) →
      rule.2 s' = some (l.text, rest'))
    (h : first? s = some (l, rest)) : first? s' = some (l, rest') := by
  rw [first?_eq] at h ⊢
  generalize rules = rs at h hnone hsome
  induction rs with
  | nil => simp at h
  | cons rule rs ih =>
    rw [List.findSome?_cons, cutBy] at h ⊢
    cases hcut : rule.2 s with
    | some p =>
      simp only [hcut, Option.map_some, Option.some.injEq, Prod.mk.injEq] at h
      obtain ⟨rfl, rfl⟩ := h
      rw [hsome rule (by simp) rfl hcut]
      rfl
    | none =>
      rw [hcut] at h
      rw [hnone rule (by simp) hcut]
      exact ih h (fun other hother => hnone other (by simp [hother]))
        (fun other hother => hsome other (by simp [hother]))

/-- The rules before the one that applies stay without effect on the shorter text. -/
theorem first?_narrow {l : Lexeme} {r t : Text}
    (h : first? (l.text ++ (r ++ t)) = some (l, r ++ t)) : first? (l.text ++ r) = some (l, r) := by
  refine first?_transfer (fun rule hrule hlong => ?_)
    (fun rule hrule _ => narrows_of_mem_rules hrule _ _ _) h
  rw [← Option.not_isSome_iff_eq_none]
  intro hshort
  have hlonger := persists_of_mem_rules hrule _ t hshort
  rw [List.append_assoc, hlong] at hlonger
  exact absurd hlonger (by decide)

end Lexeme

namespace Text

@[simp] theorem lexemes_nil : lexemes [] = [] := by
  rw [lexemes]
  rfl

theorem lexemes_of_first? {s rest : Text} {l : Lexeme} (h : Lexeme.first? s = some (l, rest)) :
    lexemes s = l :: lexemes rest := by
  rw [lexemes]
  split
  · rename_i h'
    rw [h] at h'
    simp at h'
  · rename_i l' rest' h'
    rw [h] at h'
    simp only [Option.some.injEq, Prod.mk.injEq] at h'
    rw [h'.1, h'.2]

theorem first?_of_lexemes {s : Text} {l : Lexeme} {ls : List Lexeme} (h : lexemes s = l :: ls) :
    ∃ rest, Lexeme.first? s = some (l, rest) ∧ lexemes rest = ls := by
  cases hf : Lexeme.first? s with
  | none => simp [Lexeme.first?_eq_none hf] at h
  | some p =>
    obtain ⟨m, rest⟩ := p
    rw [lexemes_of_first? hf, List.cons.injEq] at h
    obtain ⟨rfl, rfl⟩ := h
    exact ⟨rest, rfl, rfl⟩

/-- The lexemes in front of a place stay what they are when the text behind it ends earlier. -/
theorem lexemes_narrow {ls ms : List Lexeme} {r t : Text}
    (h : lexemes (ls.flatMap Lexeme.text ++ (r ++ t)) = ls ++ ms) :
    lexemes (ls.flatMap Lexeme.text ++ r) = ls ++ lexemes r ∧ lexemes (r ++ t) = ms := by
  induction ls with
  | nil => exact ⟨rfl, h⟩
  | cons l ls ih =>
    obtain ⟨rest, hfirst, hrest⟩ := first?_of_lexemes h
    have happ := (Lexeme.first?_eq_some hfirst).2
    rw [List.flatMap_cons, List.append_assoc] at hfirst happ
    rw [List.append_cancel_left_eq] at happ
    subst happ
    obtain ⟨hfront, hback⟩ := ih hrest
    rw [← List.append_assoc (List.flatMap _ _)] at hfirst
    rw [List.flatMap_cons, List.append_assoc, lexemes_of_first? (Lexeme.first?_narrow hfirst), hfront]
    exact ⟨rfl, hback⟩

/-- A text divided between two lexemes is cut into the same lexemes part by part. -/
theorem lexemes_of_append {s t : Text} {ls ms : List Lexeme} (h : lexemes (s ++ t) = ls ++ ms)
    (hs : ls.flatMap Lexeme.text = s) : lexemes s = ls ∧ lexemes t = ms := by
  subst hs
  have hparts := lexemes_narrow (r := []) h
  rwa [List.append_nil, lexemes_nil, List.append_nil, List.nil_append] at hparts

end Text

end DocScaffold
