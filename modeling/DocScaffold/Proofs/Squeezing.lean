import DocScaffold.Proofs.Closed
import DocScaffold.Text.Basic

/-!
# Lexemes under single spaces

`squeeze` writes every run of blanks as one space. A text without line comments and without a lone
apostrophe has the same lexemes before and after, each of them squeezed by itself (`lexemes_squeeze`).
A line comment would swallow what follows its line, and blanks between two apostrophes could become a
character.
-/

namespace DocScaffold

namespace Text

/-- Every run of blanks as one space. -/
def squeeze : Text → Text
  | [] => []
  | c :: rest =>
    if isBlank c then
      if rest.head?.any isBlank then squeeze rest else ' ' :: squeeze rest
    else c :: squeeze rest

theorem isBlank_space : isBlank ' ' = true := by decide

/-- What is left of a character in front of the next one: nothing of a blank in front of another. -/
def lead (c : Char) (next : Option Char) : Text :=
  if isBlank c then if next.any isBlank then [] else [' '] else [c]

theorem squeeze_eq_lead (c : Char) (s : Text) : squeeze (c :: s) = lead c s.head? ++ squeeze s := by
  rw [squeeze, lead]
  split
  · split <;> rfl
  · rfl

theorem lead_cases (c : Char) (next : Option Char) :
    lead c next = [] ∨ ∃ d, lead c next = [d] ∧ (d = ' ' ∨ d = c) := by
  unfold lead
  split
  · split
    · exact .inl rfl
    · exact .inr ⟨' ', rfl, .inl rfl⟩
  · exact .inr ⟨c, rfl, .inr rfl⟩

theorem squeeze_cons {c : Char} {s : Text} (h : isBlank c = false) :
    squeeze (c :: s) = c :: squeeze s := by
  rw [squeeze, h]
  rfl

theorem squeeze_blank {c : Char} {s : Text} (h : isBlank c = true)
    (hs : s.head?.any isBlank = false) : squeeze (c :: s) = ' ' :: squeeze s := by
  rw [squeeze, h, hs]
  rfl

theorem squeeze_blank_blank {c : Char} {s : Text} (h : isBlank c = true)
    (hs : s.head?.any isBlank = true) : squeeze (c :: s) = squeeze s := by
  rw [squeeze, h, hs]
  rfl

/-- One character in front of one that is not blank. -/
theorem squeeze_cons_cons {c d : Char} {s : Text} (hd : isBlank d = false) :
    squeeze (c :: d :: s) = (if isBlank c then ' ' else c) :: d :: squeeze s := by
  cases hc : isBlank c with
  | false => rw [squeeze_cons hc, squeeze_cons hd, if_neg (by decide)]
  | true => rw [squeeze_blank hc (by simpa using hd), squeeze_cons hd, if_pos rfl]

theorem squeeze_singleton (c : Char) : squeeze [c] = [if isBlank c then ' ' else c] := by
  cases hc : isBlank c with
  | false => rw [squeeze_cons hc, if_neg (by decide), squeeze]
  | true => rw [squeeze_blank hc rfl, if_pos rfl, squeeze]

theorem head?_squeeze (s : Text) :
    (squeeze s).head? = s.head?.map fun c => if isBlank c then ' ' else c := by
  fun_induction squeeze s with
  | case1 => rfl
  | case2 c rest hc hrest ih =>
    rw [ih, List.head?_cons]
    cases rest with
    | nil => simp at hrest
    | cons d rest =>
      rw [List.head?_cons, Option.any_some] at hrest
      simp [hc, hrest]
  | case3 c rest hc hrest ih => simp [hc]
  | case4 c rest hc ih => simp [hc]

theorem any_head?_squeeze (s : Text) :
    (squeeze s).head?.any isBlank = s.head?.any isBlank := by
  rw [head?_squeeze]
  cases s with
  | nil => rfl
  | cons c s =>
    simp only [List.head?_cons, Option.map_some, Option.any_some]
    split
    · rename_i hc
      rw [hc, isBlank_space]
    · rfl

theorem eq_of_mem_head?_squeeze {s : Text} {c : Char} (h : c ∈ (squeeze s).head?) :
    c = ' ' ∨ c ∈ s.head? := by
  rw [head?_squeeze] at h
  cases s with
  | nil => simp at h
  | cons d s =>
    simp only [List.head?_cons, Option.map_some, Option.mem_some_iff] at h ⊢
    split at h
    · exact .inl h.symm
    · exact .inr h

/-- A character of the squeezed text that is no blank is one of the text. -/
theorem of_squeeze_eq_cons {s u : Text} {c : Char} (hc : isBlank c = false)
    (h : squeeze s = c :: u) : ∃ v, s = c :: v ∧ squeeze v = u := by
  cases s with
  | nil => simp [squeeze] at h
  | cons d s =>
    have hhead := head?_squeeze (d :: s)
    rw [h, List.head?_cons, List.head?_cons, Option.map_some, Option.some.injEq] at hhead
    cases hd : isBlank d with
    | true =>
      rw [hd, if_pos rfl] at hhead
      rw [hhead, isBlank_space] at hc
      exact absurd hc (by decide)
    | false =>
      rw [squeeze_cons hd, List.cons.injEq] at h
      exact ⟨s, by rw [h.1], h.2⟩

theorem squeeze_append {a b : Text}
    (h : ∀ x ∈ a.getLast?, isBlank x = true → ∀ y ∈ b.head?, isBlank y = false) :
    squeeze (a ++ b) = squeeze a ++ squeeze b := by
  induction a with
  | nil => rfl
  | cons c a ih =>
    cases a with
    | nil =>
      rw [List.singleton_append, squeeze_singleton]
      cases hc : isBlank c with
      | false => rw [squeeze_cons hc, if_neg (by decide), List.singleton_append]
      | true =>
        rw [squeeze_blank hc, if_pos rfl, List.singleton_append]
        cases b with
        | nil => rfl
        | cons d b => simpa using h c rfl hc
    | cons d a =>
      have hrest := ih fun x hx => h x (by rw [List.getLast?_cons_cons]; exact hx)
      have hhead : (d :: a ++ b).head? = (d :: a).head? := rfl
      rw [List.cons_append, squeeze.eq_2 c (d :: a ++ b), hhead, hrest, squeeze.eq_2 c (d :: a)]
      split
      · split <;> rfl
      · rfl

theorem squeeze_append_of_not_blank {a b : Text} (h : ∀ c ∈ a, isBlank c = false) :
    squeeze (a ++ b) = a ++ squeeze b := by
  induction a with
  | nil => rfl
  | cons c a ih =>
    rw [List.cons_append, squeeze_cons (h c (by simp)), ih fun d hd => h d (by simp [hd]),
      List.cons_append]

theorem squeeze_of_not_blank {a : Text} (h : ∀ c ∈ a, isBlank c = false) : squeeze a = a := by
  have := squeeze_append_of_not_blank (b := []) h
  simpa [squeeze] using this

theorem squeeze_of_blank {a : Text} (hne : a ≠ []) (h : ∀ c ∈ a, isBlank c = true) :
    squeeze a = [' '] := by
  induction a with
  | nil => exact absurd rfl hne
  | cons c a ih =>
    cases a with
    | nil => rw [squeeze_singleton, if_pos (h c (by simp))]
    | cons d a =>
      rw [squeeze_blank_blank (h c (by simp)) (by simpa using h d (by simp))]
      exact ih (by simp) fun e he => h e (by simp [he])

theorem squeeze_squeeze (s : Text) : squeeze (squeeze s) = squeeze s := by
  induction s with
  | nil => rfl
  | cons c s ih =>
    cases hc : isBlank c with
    | false => rw [squeeze_cons hc, squeeze_cons hc, ih]
    | true =>
      cases hs : s.head?.any isBlank with
      | true => rw [squeeze_blank_blank hc hs, ih]
      | false =>
        have hhead : (squeeze s).head?.any isBlank = false := by rw [any_head?_squeeze, hs]
        rw [squeeze_blank hc hs, squeeze_blank isBlank_space hhead, ih]

/-! ## Cutting a squeezed text -/

/-- The cut takes the same from the squeezed text, squeezed. -/
def Squeezes (cut : Text → Cut) (s : Text) : Prop :=
  cut (squeeze s) = (cut s).map fun p => (squeeze p.1, squeeze p.2)

/-- Single spaces leave the signs in front of a cut as they are. -/
theorem map_after {head : Text} (h : ∀ c ∈ head, isBlank c = false) (cut : Cut) :
    ((Cut.after head cut).map fun p => (squeeze p.1, squeeze p.2)) =
      Cut.after head (cut.map fun p => (squeeze p.1, squeeze p.2)) := by
  cases cut with
  | none => rfl
  | some p =>
    obtain ⟨a, b⟩ := p
    simp only [Cut.after_some, Option.map_some, squeeze_append_of_not_blank h]

/-- A cut behind signs of its own. -/
theorem Squeezes.after {cut : Text → Cut} {rest : Text} (h : Squeezes cut rest) (head : Text)
    (hhead : ∀ c ∈ head, isBlank c = false) :
    Cut.after head (cut (squeeze rest)) =
      (Cut.after head (cut rest)).map fun p => (squeeze p.1, squeeze p.2) := by
  rw [map_after hhead, h]

theorem squeezes_cutRun {first more : Char → Bool} {s : Text}
    (hs : s.head?.any isBlank = false) (hmore : ∀ c, more c = true → isBlank c = false) :
    Squeezes (cutRun first more) s := by
  have hspace : more ' ' = false := by
    cases h : more ' ' with
    | false => rfl
    | true =>
      have := hmore ' ' h
      rw [isBlank_space] at this
      exact absurd this (by decide)
  unfold Squeezes
  cases s with
  | nil => rfl
  | cons c rest =>
    rw [List.head?_cons, Option.any_some] at hs
    cases hfirst : first c with
    | false => rw [squeeze_cons hs, cutRun_of_not_first hfirst, cutRun_of_not_first hfirst]; rfl
    | true =>
      have hsplit : rest.takeWhile more ++ rest.dropWhile more = rest :=
        List.takeWhile_append_dropWhile
      have hrun : ∀ d ∈ rest.takeWhile more, more d = true := fun d hd => of_mem_takeWhile more hd
      have hstop : ∀ d ∈ (rest.dropWhile more).head?, more d = false :=
        fun d hd => head?_dropWhile more hd
      generalize rest.takeWhile more = w at hsplit hrun
      generalize rest.dropWhile more = b at hsplit hstop
      subst hsplit
      have hw : ∀ d ∈ w, isBlank d = false := fun d hd => hmore d (hrun d hd)
      have hcut := cutRun_append hfirst hrun hstop
      rw [List.cons_append] at hcut
      rw [squeeze_cons hs, squeeze_append_of_not_blank hw, hcut, Option.map_some, squeeze_cons hs,
        squeeze_of_not_blank hw, ← List.cons_append]
      apply cutRun_append hfirst hrun
      intro y hy
      rcases eq_of_mem_head?_squeeze hy with rfl | hy
      · exact hspace
      · exact hstop y hy

theorem squeezes_cutName (s : Text) : Squeezes cutName s := by
  cases hs : s.head?.any isBlank with
  | false => exact squeezes_cutRun hs fun c hc => isBlank_of_isWord hc
  | true =>
    have hnone : ∀ u : Text, u.head?.any isBlank = true → cutName u = none := by
      intro u hu
      cases u with
      | nil => simp at hu
      | cons c u => exact cutRun_of_not_first (isNameStart_of_isBlank hu)
    unfold Squeezes
    rw [hnone s hs, hnone _ (by rw [any_head?_squeeze]; exact hs)]
    rfl

theorem squeezes_cutLifetime (s : Text) : Squeezes cutLifetime s := by
  unfold Squeezes
  by_cases hs : ∃ rest, s = '\x27' :: rest
  · obtain ⟨rest, rfl⟩ := hs
    rw [squeeze_cons (by decide)]
    exact (squeezes_cutName rest).after ['\x27'] (not_blank_of_all (by decide))
  · rw [cutLifetime.eq_2 s fun rest h => hs ⟨rest, h⟩, cutLifetime.eq_2]
    · rfl
    · intro rest h
      obtain ⟨v, hv, -⟩ := of_squeeze_eq_cons (by decide) h
      exact hs ⟨v, hv⟩

theorem squeezes_cutIdent (s : Text) : Squeezes cutIdent s := by
  unfold Squeezes
  have hwhole := squeezes_cutName s
  unfold Squeezes at hwhole
  by_cases hs : ∃ rest, s = 'r' :: '#' :: rest
  · obtain ⟨rest, rfl⟩ := hs
    rw [squeeze_cons (by decide), squeeze_cons (by decide)] at hwhole ⊢
    rw [cutIdent, cutIdent, hwhole,
      (squeezes_cutName rest).after ['r', '#'] (not_blank_of_all (by decide)), Option.map_or]
  · rw [cutIdent_of_not_raw fun rest h => hs ⟨rest, h⟩, cutIdent_of_not_raw, hwhole]
    intro rest h
    obtain ⟨v, rfl, hv⟩ := of_squeeze_eq_cons (by decide) h
    obtain ⟨w, rfl, -⟩ := of_squeeze_eq_cons (by decide) hv
    exact hs ⟨w, rfl⟩

theorem squeezes_cutPunct {s : Text} (hs : s.head?.any isBlank = false) : Squeezes cutPunct s := by
  unfold Squeezes
  fun_cases cutPunct s with
  | case1 => rfl
  | case6 rest hrest =>
    rw [squeeze_cons (by decide), squeeze_cons (by decide), cutPunct.eq_6]
    · rfl
    · intro u h
      obtain ⟨v, hv, -⟩ := of_squeeze_eq_cons (by decide) h
      exact hrest v hv
  | case7 c rest h1 h2 h3 h4 h5 hc | case8 c rest h1 h2 h3 h4 h5 hc =>
    rw [List.head?_cons, Option.any_some] at hs
    have hback : ∀ d, isBlank d = false → (∀ u, rest ≠ d :: u) → ∀ u, squeeze rest ≠ d :: u := by
      intro d hd hrest u h
      obtain ⟨v, hv, -⟩ := of_squeeze_eq_cons hd h
      exact hrest v hv
    rw [squeeze_cons hs, cutPunct.eq_7]
    · split <;> simp_all [squeeze_of_not_blank]
    · exact fun u hd => hback '>' (by decide) (fun v => h1 v hd) u
    · exact fun u hd => hback '>' (by decide) (fun v => h2 v hd) u
    · exact fun u hd => hback ':' (by decide) (fun v => h3 v hd) u
    · exact fun u hd h => hback '.' (by decide) (fun v => h5 v hd) _ h
    · exact fun u hd => hback '.' (by decide) (fun v => h5 v hd) u
  | _ =>
    have hsigns : isBlank '-' = false ∧ isBlank '>' = false ∧ isBlank '=' = false ∧
        isBlank ':' = false ∧ isBlank '.' = false := by decide
    simp [cutPunct, squeeze, hsigns]

/-! ### Comments and literals -/

theorem squeezes_cutLineComment {s : Text} (h : ∀ rest, s ≠ '/' :: '/' :: rest) :
    Squeezes cutLineComment s := by
  unfold Squeezes
  rw [cutLineComment.eq_2 s fun rest => h rest, cutLineComment.eq_2]
  · rfl
  · intro rest heq
    obtain ⟨v, rfl, hv⟩ := of_squeeze_eq_cons (by decide) heq
    obtain ⟨w, rfl, -⟩ := of_squeeze_eq_cons (by decide) hv
    exact h w rfl

theorem isPrefixOf_squeeze {mark s : Text} (hmark : ∀ c ∈ mark, isBlank c = false) :
    mark.isPrefixOf (squeeze s) = mark.isPrefixOf s := by
  induction mark generalizing s with
  | nil => simp
  | cons m mark ih =>
    have hm := hmark m (by simp)
    have ih' := fun s => ih (s := s) fun c hc => hmark c (by simp [hc])
    rw [Bool.eq_iff_iff]
    constructor
    · intro h
      cases hs : squeeze s with
      | nil => simp [hs] at h
      | cons c u =>
        rw [hs, List.isPrefixOf, Bool.and_eq_true, beq_iff_eq] at h
        obtain ⟨rfl, h⟩ := h
        obtain ⟨v, rfl, rfl⟩ := of_squeeze_eq_cons hm hs
        rw [ih'] at h
        simpa [List.isPrefixOf] using h
    · intro h
      cases s with
      | nil => simp at h
      | cons c s =>
        rw [List.isPrefixOf, Bool.and_eq_true, beq_iff_eq] at h
        obtain ⟨rfl, h⟩ := h
        rw [squeeze_cons hm, List.isPrefixOf, ih', h]
        simp

theorem drop_squeeze {mark s : Text} (hmark : ∀ c ∈ mark, isBlank c = false)
    (h : mark.isPrefixOf s = true) :
    (squeeze s).drop mark.length = squeeze (s.drop mark.length) := by
  obtain ⟨t, rfl⟩ := List.isPrefixOf_iff_prefix.1 h
  rw [squeeze_append_of_not_blank hmark, List.drop_left, List.drop_left]

@[simp] theorem Cut.after_nil (cut : Cut) : Cut.after [] cut = cut := by
  cases cut <;> rfl

/-- A cut that goes on behind the first character, squeezed. -/
theorem map_after_cons {c : Char} {rest : Text} {cut : Cut}
    (h : ∀ a b, cut = some (a, b) → a ≠ [] ∧ a ++ b = rest) :
    ((Cut.after [c] cut).map fun p => (squeeze p.1, squeeze p.2)) =
      Cut.after (lead c rest.head?) (cut.map fun p => (squeeze p.1, squeeze p.2)) := by
  cases cut with
  | none => rfl
  | some p =>
    obtain ⟨a, b⟩ := p
    obtain ⟨hne, rfl⟩ := h a b rfl
    have hhead : (a ++ b).head? = a.head? := by
      cases a with
      | nil => exact absurd rfl hne
      | cons d a => rfl
    simp only [Cut.after_some, Option.map_some, List.singleton_append]
    rw [squeeze_eq_lead, hhead]

theorem squeezes_cutThrough {mark : Text} (hne : mark ≠ [])
    (hmark : ∀ c ∈ mark, isBlank c = false) (s : Text) : Squeezes (cutThrough mark) s := by
  unfold Squeezes
  induction s with
  | nil =>
    rw [squeeze, cutThrough, if_neg (by simpa using hne)]
    rfl
  | cons c rest ih =>
    have hpre := isPrefixOf_squeeze (s := c :: rest) hmark
    rw [cutThrough]
    split
    · rename_i h
      rw [h] at hpre
      have hdrop := drop_squeeze hmark h
      cases hs : squeeze (c :: rest) with
      | nil =>
        rw [hs] at hpre
        cases mark with
        | nil => exact absurd rfl hne
        | cons m mark => simp at hpre
      | cons d u =>
        rw [hs] at hpre hdrop
        rw [cutThrough, if_pos hpre, hdrop, Option.map_some, squeeze_of_not_blank hmark]
    · rename_i h
      have hwhole : ∀ a b, cutThrough mark rest = some (a, b) → a ≠ [] ∧ a ++ b = rest := by
        intro a b hcut
        refine ⟨?_, append_of_cutThrough hcut⟩
        rintro rfl
        have hlen := length_mark_le hcut
        exact hne (List.length_eq_zero_iff.1 (Nat.le_zero.1 hlen))
      rw [map_after_cons hwhole, ← ih, squeeze_eq_lead]
      rw [← hpre, squeeze_eq_lead] at h
      -- Where two blanks become one, the first of them leaves no trace.
      rcases lead_cases c rest.head? with hlead | ⟨d, hlead, -⟩
      · rw [hlead, List.nil_append, Cut.after_nil]
      · rw [hlead] at h ⊢
        rw [List.singleton_append] at h ⊢
        rw [cutThrough, if_neg h]

theorem squeezes_cutBlockComment (s : Text) : Squeezes cutBlockComment s := by
  unfold Squeezes
  by_cases hs : ∃ rest, s = '/' :: '*' :: rest
  · obtain ⟨rest, rfl⟩ := hs
    have hcut : Squeezes (cutThrough ['*', '/']) rest :=
      squeezes_cutThrough (by simp) (not_blank_of_all (by decide)) rest
    rw [squeeze_cons (by decide), squeeze_cons (by decide)]
    exact hcut.after ['/', '*'] (not_blank_of_all (by decide))
  · rw [cutBlockComment.eq_2 s fun rest h => hs ⟨rest, h⟩, cutBlockComment.eq_2]
    · rfl
    · intro rest h
      obtain ⟨v, rfl, hv⟩ := of_squeeze_eq_cons (by decide) h
      obtain ⟨w, rfl, -⟩ := of_squeeze_eq_cons (by decide) hv
      exact hs ⟨w, rfl⟩

theorem squeezes_cutByte {cut : Text → Cut} {s : Text} (h : Squeezes cut s)
    (hbyte : ∀ rest, s = 'b' :: rest → Squeezes cut rest) : Squeezes (cutByte cut) s := by
  unfold Squeezes
  by_cases hs : ∃ rest, s = 'b' :: rest
  · obtain ⟨rest, rfl⟩ := hs
    rw [squeeze_cons (by decide)]
    exact (hbyte rest rfl).after ['b'] (not_blank_of_all (by decide))
  · rw [cutByte.eq_2 cut s fun rest h => hs ⟨rest, h⟩, cutByte.eq_2]
    · exact h
    · intro rest heq
      obtain ⟨v, hv, -⟩ := of_squeeze_eq_cons (by decide) heq
      exact hs ⟨v, hv⟩

theorem squeezes_cutRawString (s : Text) : Squeezes cutRawString s := by
  unfold Squeezes
  by_cases hs : ∃ rest, s = 'r' :: rest
  · obtain ⟨rest, rfl⟩ := hs
    obtain ⟨hashes, tail, rfl, hh, htail⟩ := exists_hashes rest
    have hplain : ∀ c ∈ hashes, isBlank c = false := by
      intro c hc
      rw [hh c hc]
      decide
    rw [squeeze_cons (by decide), squeeze_append_of_not_blank hplain]
    by_cases hquote : ∃ body, tail = '"' :: body
    · obtain ⟨body, rfl⟩ := hquote
      have hquote : ∀ c ∈ ['r', '"'], isBlank c = false := not_blank_of_all (by decide)
      have hmark : ∀ c ∈ '"' :: hashes, isBlank c = false :=
        List.forall_mem_cons.2 ⟨hquote _ (by simp), hplain⟩
      have hword : ∀ c ∈ 'r' :: hashes, isBlank c = false :=
        List.forall_mem_cons.2 ⟨hquote _ (by simp), hplain⟩
      have hfront : ∀ c ∈ 'r' :: hashes ++ ['"'], isBlank c = false :=
        List.forall_mem_append.2 ⟨hword, fun c hc => hquote c (List.mem_cons_of_mem _ hc)⟩
      rw [squeeze_cons (by decide), cutRawString_hashes _ hh, cutRawString_hashes _ hh]
      exact (squeezes_cutThrough (by simp) hmark body).after _ hfront
    · have hother : ∀ c ∈ tail.head?, c ≠ '#' ∧ c ≠ '"' := by
        intro c hc
        refine ⟨htail c hc, ?_⟩
        rintro rfl
        cases tail with
        | nil => simp at hc
        | cons d tail => exact hquote ⟨tail, by simpa using hc⟩
      rw [cutRawString_of_no_quote hh hother, cutRawString_of_no_quote hh]
      · rfl
      · intro c hc
        rcases eq_of_mem_head?_squeeze hc with rfl | hc
        · decide
        · exact hother c hc
  · rw [cutRawString.eq_2 s fun rest h => hs ⟨rest, h⟩, cutRawString.eq_2]
    · rfl
    · intro rest h
      obtain ⟨v, hv, -⟩ := of_squeeze_eq_cons (by decide) h
      exact hs ⟨v, hv⟩

theorem ne_nil_of_cutQuoted {s a b : Text} (h : cutQuoted s = some (a, b)) : a ≠ [] := by
  unfold cutQuoted at h
  split at h
  · simp at h
  · simp only [Option.some.injEq, Prod.mk.injEq] at h
    simp [← h.1]
  · simp at h
  · obtain ⟨a', -, rfl⟩ := Cut.after_eq_some h
    simp
  · obtain ⟨a', -, rfl⟩ := Cut.after_eq_some h
    simp

theorem cutQuoted_cons {c : Char} {rest : Text} (h : c ≠ '"' ∧ c ≠ '\\') :
    cutQuoted (c :: rest) = (cutQuoted rest).after [c] :=
  cutQuoted.eq_5 _ _ h.1 (fun h' _ => h.2 h') (fun _ _ h' _ => h.2 h')

theorem Cut.after_after (a b : Text) (cut : Cut) :
    Cut.after a (Cut.after b cut) = Cut.after (a ++ b) cut := by
  cases cut with
  | none => rfl
  | some p =>
    obtain ⟨x, y⟩ := p
    simp

theorem squeezes_cutQuoted (s : Text) : Squeezes cutQuoted s := by
  unfold Squeezes
  fun_induction cutQuoted s with
  | case1 => rfl
  | case2 rest =>
    rw [squeeze_cons (by decide), cutQuoted, Option.map_some]
    rfl
  | case3 => rfl
  | case4 c rest ih =>
    have hwhole : ∀ a b, cutQuoted rest = some (a, b) → a ≠ [] ∧ a ++ b = rest :=
      fun a b h => ⟨ne_nil_of_cutQuoted h, append_of_cutQuoted h⟩
    have hback : ((Cut.after ['\\', c] (cutQuoted rest)).map fun p => (squeeze p.1, squeeze p.2)) =
        Cut.after ['\\'] (Cut.after (lead c rest.head?) (cutQuoted (squeeze rest))) := by
      rw [ih, ← map_after_cons hwhole, ← map_after (not_blank_of_all (by decide)), Cut.after_after]
      rfl
    rw [hback, squeeze_cons (by decide), squeeze_eq_lead, Cut.after_after]
    unfold lead
    split
    · split
      · -- The backslash now hides the blank that the next ones have become.
        rename_i hnext
        have hhead := head?_squeeze rest
        cases rest with
        | nil => simp at hnext
        | cons d rest =>
          rw [List.head?_cons, Option.any_some] at hnext
          rw [List.head?_cons, Option.map_some, if_pos hnext] at hhead
          obtain ⟨u, hu⟩ : ∃ u, squeeze (d :: rest) = ' ' :: u := List.head?_eq_some_iff.1 hhead
          rw [List.nil_append, hu, cutQuoted, cutQuoted_cons (by decide), List.append_nil,
            Cut.after_after]
          rfl
      · rfl
    · rfl
  | case5 c rest h1 h2 h3 ih =>
    have hc : c ≠ '\\' := by
      intro hc
      cases rest with
      | nil => exact h2 hc rfl
      | cons d rest => exact h3 d rest hc rfl
    rw [map_after_cons fun a b h => ⟨ne_nil_of_cutQuoted h, append_of_cutQuoted h⟩, ← ih,
      squeeze_eq_lead]
    rcases lead_cases c rest.head? with hlead | ⟨d, hlead, rfl | rfl⟩
    · rw [hlead, List.nil_append, Cut.after_nil]
    · rw [hlead]
      exact cutQuoted_cons (by decide)
    · rw [hlead]
      exact cutQuoted_cons ⟨h1, hc⟩

theorem squeezes_cutString (s : Text) : Squeezes cutString s := by
  unfold Squeezes
  by_cases hs : ∃ rest, s = '"' :: rest
  · obtain ⟨rest, rfl⟩ := hs
    rw [squeeze_cons (by decide)]
    exact (squeezes_cutQuoted rest).after ['"'] (not_blank_of_all (by decide))
  · rw [cutString.eq_2 s fun rest h => hs ⟨rest, h⟩, cutString.eq_2]
    · rfl
    · intro rest h
      obtain ⟨v, hv, -⟩ := of_squeeze_eq_cons (by decide) h
      exact hs ⟨v, hv⟩

/-- A character literal stays one when a blank in it becomes a space. -/
theorem squeezes_cutChar_of_some {s a b : Text} (h : cutChar s = some (a, b)) :
    Squeezes cutChar s := by
  unfold Squeezes
  rw [h, Option.map_some]
  obtain ⟨rfl, ⟨c, rfl⟩ | ⟨c, hback, hquote, rfl⟩⟩ := cutChar_eq_some h
  · simp only [List.cons_append, List.nil_append]
    rw [squeeze_cons (by decide), squeeze_cons (by decide), squeeze_cons_cons (by decide),
      squeeze_cons (by decide), squeeze_cons (by decide), squeeze_cons_cons (by decide)]
    rfl
  · have hd : (if isBlank c then ' ' else c) ≠ '\\' ∧ (if isBlank c then ' ' else c) ≠ '\x27' := by
      split
      · decide
      · exact ⟨hback, hquote⟩
    simp only [List.cons_append, List.nil_append]
    rw [squeeze_cons (by decide), squeeze_cons_cons (by decide), squeeze_cons (by decide),
      squeeze_cons_cons (by decide)]
    generalize (if isBlank c then ' ' else c) = d at hd
    simp [cutChar, hd.1, hd.2, squeeze]

/-- An apostrophe that begins neither a character nor a lifetime may begin a character when the
blanks behind it become one. -/
theorem squeezes_cutChar {s : Text}
    (h : ∀ rest, s = '\x27' :: rest → cutChar s = none → (cutLifetime s).isSome) :
    Squeezes cutChar s := by
  cases hcut : cutChar s with
  | some p => exact squeezes_cutChar_of_some hcut
  | none =>
    unfold Squeezes
    rw [hcut, Option.map_none]
    by_cases hs : ∃ rest, s = '\x27' :: rest
    · obtain ⟨rest, rfl⟩ := hs
      obtain ⟨c, rest, rfl, hc⟩ := exists_of_isSome_cutLifetime (h rest rfl hcut)
      have hword := isWord_of_isNameStart c hc
      rw [cutChar_word_eq_none_iff hword] at hcut
      rw [squeeze_cons (by decide), squeeze_cons (isBlank_of_isNameStart hc),
        cutChar_word_eq_none_iff hword]
      intro u heq
      obtain ⟨v, rfl, -⟩ := of_squeeze_eq_cons (by decide) heq
      exact hcut v rfl
    · have hother : ∀ rest, squeeze s ≠ '\x27' :: rest := by
        intro rest heq
        obtain ⟨v, hv, -⟩ := of_squeeze_eq_cons (by decide) heq
        exact hs ⟨v, hv⟩
      exact cutChar.eq_3 _ (fun c rest => hother _) (fun c rest => hother _)

end Text

/-! ### All rules together -/

/-- The lexeme with single spaces. -/
def Lexeme.squeezed (l : Lexeme) : Lexeme := ⟨l.kind, l.text.squeeze⟩

namespace Text

theorem squeezes_of_mem_rules {rule : Lexeme.Kind × (Text → Cut)} (hmem : rule ∈ Lexeme.rules)
    {s : Text} (hs : s.head?.any isBlank = false) (hcomment : ∀ rest, s ≠ '/' :: '/' :: rest)
    (hquote : ∀ l ∈ lexemes s, l.isSign '\x27' = false) : Squeezes rule.2 s := by
  have hlifetime : ∀ rest, (∀ l ∈ lexemes ('\x27' :: rest), l.isSign '\x27' = false) →
      cutChar ('\x27' :: rest) = none → (cutLifetime ('\x27' :: rest)).isSome := by
    intro rest hrest hchar
    rw [Option.isSome_iff_ne_none]
    intro hl
    have := hrest ⟨.token .punct, ['\x27']⟩ (by simp [lexemes_apostrophe hchar hl])
    simp [Lexeme.isSign] at this
  simp only [Lexeme.rules, List.mem_cons, List.not_mem_nil, or_false] at hmem
  rcases hmem with rfl | rfl | rfl | rfl | rfl | rfl | rfl | rfl | rfl | rfl | rfl
  · -- A text that begins with no blank has no blank cut off.
    have hnone : ∀ u : Text, u.head?.any isBlank = false → cutRun isBlank isBlank u = none := by
      intro u hu
      rw [← Option.not_isSome_iff_eq_none, isSome_cutRun, hu]
      decide
    unfold Squeezes
    dsimp only
    rw [hnone s hs, hnone _ (by rw [any_head?_squeeze]; exact hs)]
    rfl
  · exact squeezes_cutLineComment hcomment
  · exact squeezes_cutBlockComment s
  · exact squeezes_cutByte (squeezes_cutRawString s) fun rest _ => squeezes_cutRawString rest
  · exact squeezes_cutByte (squeezes_cutString s) fun rest _ => squeezes_cutString rest
  · apply squeezes_cutByte
    · apply squeezes_cutChar
      rintro rest rfl hchar
      exact hlifetime rest hquote hchar
    · rintro rest rfl
      apply squeezes_cutChar
      rintro u rfl hchar
      refine hlifetime u (fun l hl => hquote l ?_) hchar
      rw [lexemes_byte_mark (.inr rfl) rfl hchar]
      simp [hl]
  · exact squeezes_cutLifetime s
  · exact squeezes_cutIdent s
  · exact squeezes_cutRun hs fun c hc => isBlank_of_isWord hc
  · exact squeezes_cutPunct hs
  · exact squeezes_cutRun hs fun c hc => absurd hc (by decide)

theorem first?_squeeze {s : Text} (hs : s.head?.any isBlank = false)
    (hcomment : ∀ rest, s ≠ '/' :: '/' :: rest)
    (hquote : ∀ l ∈ lexemes s, l.isSign '\x27' = false) :
    Lexeme.first? (squeeze s) = (Lexeme.first? s).map fun p => (p.1.squeezed, squeeze p.2) :=
  Lexeme.first?_map squeeze squeeze fun _ hmem => squeezes_of_mem_rules hmem hs hcomment hquote

theorem first?_blank {w b : Text} (hne : w ≠ []) (hw : ∀ c ∈ w, isBlank c = true)
    (hb : ∀ c ∈ b.head?, isBlank c = false) :
    Lexeme.first? (w ++ b) = some (⟨.blank, w⟩, b) := by
  cases w with
  | nil => exact absurd rfl hne
  | cons c w =>
    have hmore : ∀ d ∈ w, isBlank d = true := fun d hd => hw d (by simp [hd])
    have hcut : cutRun isBlank isBlank (c :: w ++ b) = some (c :: w, b) :=
      cutRun_append (hw c (by simp)) hmore hb
    simp only [Lexeme.first?, Lexeme.rules, List.findSome?_cons, hcut, Option.map_some]

/-- The blanks that a text begins with. -/
theorem exists_blanks {s : Text} (hs : s.head?.any isBlank = true) :
    ∃ w b, s = w ++ b ∧ w ≠ [] ∧ (∀ c ∈ w, isBlank c = true) ∧ ∀ c ∈ b.head?, isBlank c = false := by
  refine ⟨s.takeWhile isBlank, s.dropWhile isBlank, List.takeWhile_append_dropWhile.symm, ?_,
    fun c hc => of_mem_takeWhile isBlank hc, fun c hc => head?_dropWhile isBlank hc⟩
  cases s with
  | nil => simp at hs
  | cons c s =>
    rw [List.head?_cons, Option.any_some] at hs
    rw [List.takeWhile_cons_of_pos hs]
    simp

theorem first?_squeeze_blank {s : Text} (hs : s.head?.any isBlank = true) :
    Lexeme.first? (squeeze s) = (Lexeme.first? s).map fun p => (p.1.squeezed, squeeze p.2) := by
  obtain ⟨w, b, rfl, hne, hw, hb⟩ := exists_blanks hs
  rw [squeeze_append fun x _ _ y hy => hb y hy, squeeze_of_blank hne hw, first?_blank hne hw hb,
    first?_blank (by simp) (by simp [isBlank_space]), Option.map_some, Lexeme.squeezed,
    squeeze_of_blank hne hw]
  intro c hc
  rcases eq_of_mem_head?_squeeze hc with rfl | hc
  · cases b with
    | nil => simp [squeeze] at hc
    | cons d b =>
      have hd := hb d rfl
      rw [squeeze_cons hd] at hc
      obtain rfl : d = ' ' := by simpa using hc
      exact hd
  · exact hb c hc

/-- Squeezing a text squeezes its lexemes. -/
theorem lexemes_squeeze {s : Text} (hcomment : ∀ l ∈ lexemes s, l.kind ≠ .lineComment)
    (hquote : ∀ l ∈ lexemes s, l.isSign '\x27' = false) :
    lexemes (squeeze s) = (lexemes s).map Lexeme.squeezed := by
  fun_induction lexemes s with
  | case1 s hfirst => rw [Lexeme.first?_eq_none hfirst, squeeze, lexemes_nil, List.map_nil]
  | case2 s l rest hfirst _ ih =>
    have hsqueeze : Lexeme.first? (squeeze s) = some (l.squeezed, squeeze rest) := by
      cases hs : s.head?.any isBlank with
      | true => rw [first?_squeeze_blank hs, hfirst, Option.map_some]
      | false =>
        rw [first?_squeeze hs, hfirst, Option.map_some]
        · rintro u rfl
          rw [first?_line_comment, Option.some.injEq, Prod.mk.injEq] at hfirst
          exact hcomment l (by simp) (by rw [← hfirst.1])
        · rw [lexemes_of_first? hfirst]
          exact hquote
    rw [lexemes_of_first? hsqueeze, List.map_cons,
      ih (fun m hm => hcomment m (by simp [hm])) fun m hm => hquote m (by simp [hm])]

end Text

end DocScaffold
