import Mathlib.Data.List.Forall2
import DocScaffold.Item.Entry
import DocScaffold.Proofs.Finding
import DocScaffold.Proofs.Spacing

/-!
# Entries of texts that differ in their blanks

Alike texts are cut at the same commas into alike entries (`Alike.entries`), and without their
attributes these are alike again (`Alike.withoutAttributes`).
-/

namespace DocScaffold.Text

open Lexeme

/-! ## Blanks at the ends -/

theorem kind_of_mem_blanks {w : Text} (hw : ∀ c ∈ w, isBlank c = true) :
    ∀ l ∈ lexemes w, l.kind = .blank := by
  have h := lexemes_blanks_append (s := []) hw (by simp)
  rw [List.append_nil, lexemes_nil, List.append_nil] at h
  intro l hl
  rw [h] at hl
  split at hl
  · simp at hl
  · obtain rfl : l = _ := List.mem_singleton.1 hl
    rfl

theorem core_blanks {w : Text} (hw : ∀ c ∈ w, isBlank c = true) : core (lexemes w) = [] :=
  core_eq_nil_iff.2 (kind_of_mem_blanks hw)

theorem core_blanks_append {w s : Text} (hw : ∀ c ∈ w, isBlank c = true)
    (hs : ∀ c ∈ s.head?, isBlank c = false) : core (lexemes (w ++ s)) = core (lexemes s) := by
  have hgap : lexemes (w ++ s) = lexemes w ++ lexemes s := isGap_blanks hw hs
  rw [hgap, core_append, core_blanks hw, List.nil_append]

variable {s t : Text}

/-- A trimmed text has lost nothing but blanks. -/
theorem exists_lexemes_trim (hs : ∀ l ∈ lexemes s, l.kind ≠ .lineComment) : ∃ front back,
    lexemes s = front ++ (lexemes (trim s) ++ back) ∧ (∀ l ∈ front, l.kind = .blank) ∧
      ∀ l ∈ back, l.kind = .blank := by
  obtain ⟨w, v, heq, hw, hv⟩ := Text.exists_trim s
  by_cases hnil : trim s = []
  · have hblank : ∀ c ∈ s, isBlank c = true := by
      rw [heq, hnil, List.nil_append]
      intro c hc
      exact (List.mem_append.1 hc).elim (hw c) (hv c)
    refine ⟨lexemes s, [], ?_, kind_of_mem_blanks hblank, by simp⟩
    rw [hnil, lexemes_nil, List.append_nil, List.append_nil]
  · have hsolid := solid_trim hnil
    have hhead : ∀ c ∈ (trim s ++ v).head?, isBlank c = false := by
      rw [List.head?_append_of_ne_nil _ hnil]
      exact hsolid.head
    have hfront : lexemes s = lexemes w ++ lexemes (trim s ++ v) := by
      conv_lhs => rw [heq]
      exact isGap_blanks hw hhead
    have hcomment : ∀ l ∈ lexemes (trim s ++ v), l.kind ≠ .lineComment :=
      fun l hl => hs l (by rw [hfront]; exact List.mem_append_right _ hl)
    refine ⟨lexemes w, lexemes v, ?_, kind_of_mem_blanks hw, kind_of_mem_blanks hv⟩
    rw [hfront, lexemes_append_blanks hsolid.last hv hcomment]

/-- What is trimmed away is all of a text exactly when it consists of blanks. -/
theorem trim_eq_nil_iff (hs : ∀ l ∈ lexemes s, l.kind ≠ .lineComment) :
    trim s = [] ↔ ∀ l ∈ lexemes s, l.kind = .blank := by
  obtain ⟨front, back, heq, hfront, hback⟩ := exists_lexemes_trim hs
  constructor
  · intro h l hl
    rw [heq, h, lexemes_nil, List.nil_append] at hl
    exact (List.mem_append.1 hl).elim (hfront l) (hback l)
  · intro h
    have htext := flatMap_text_lexemes (trim s)
    by_contra hnil
    obtain ⟨c, rest, hc⟩ := List.exists_cons_of_ne_nil hnil
    have hmem : c ∈ (lexemes (trim s)).flatMap Lexeme.text := by
      rw [htext, hc]
      exact List.mem_cons_self
    obtain ⟨l, hl, hcl⟩ := List.mem_flatMap.1 hmem
    have hproper := proper_of_mem hl
    have hkind := h l (by simp [heq, hl])
    obtain ⟨kind, text⟩ := l
    obtain rfl : kind = .blank := hkind
    have hblank : isBlank c = true := hproper c hcl
    rw [(solid_trim hnil).head c (by rw [hc]; rfl)] at hblank
    exact absurd hblank (by decide)

theorem Settled.not_lineComment (hs : Settled s) : ∀ l ∈ lexemes s, l.kind ≠ .lineComment :=
  fun _ hl => (hs.spec hl).1

theorem Settled.exists_trim (hs : Settled s) : ∃ front back,
    lexemes s = front ++ (lexemes (trim s) ++ back) ∧ core front = [] ∧ core back = [] := by
  obtain ⟨front, back, heq, hfront, hback⟩ := exists_lexemes_trim hs.not_lineComment
  exact ⟨front, back, heq, core_eq_nil_iff.2 hfront, core_eq_nil_iff.2 hback⟩

theorem Settled.core_trim (hs : Settled s) : core (lexemes (trim s)) = core (lexemes s) := by
  obtain ⟨front, back, heq, hfront, hback⟩ := hs.exists_trim
  rw [heq, core_append, core_append, hfront, hback, List.nil_append, List.append_nil]

theorem Settled.trim (hs : Settled s) : Settled (Text.trim s) := by
  obtain ⟨front, back, heq, -, -⟩ := hs.exists_trim
  exact fun l hl => hs l (by simp [heq, hl])

theorem Settled.trim_eq_nil_iff (hs : Settled s) : Text.trim s = [] ↔ core (lexemes s) = [] :=
  (Text.trim_eq_nil_iff hs.not_lineComment).trans core_eq_nil_iff.symm

namespace Alike

theorem trim (h : Alike s t) : Alike (Text.trim s) (Text.trim t) :=
  ⟨h.left.trim, h.right.trim, by rw [h.left.core_trim, h.right.core_trim, h.core]⟩

theorem trim_isEmpty (h : Alike s t) : (Text.trim t).isEmpty = (Text.trim s).isEmpty := by
  rw [Bool.eq_iff_iff, List.isEmpty_iff, List.isEmpty_iff, h.right.trim_eq_nil_iff,
    h.left.trim_eq_nil_iff, h.core]

/-! ## Entries -/

/-- Alike texts behind the tokens `n`, wherever they end: from `start` on in the one text and from
`start'` on in the other. -/
structure From (s t : Text) (n start start' : Nat) : Prop where
  slice : ∀ {m : Nat} {u u' : Token}, n ≤ m → At s t m u u' →
    Alike (s.slice start u.start) (t.slice start' u'.start)
  drop : Alike (s.drop start) (t.drop start')

theorem From.zero (h : Alike s t) : From s t 0 0 0 := by
  refine ⟨fun _ hu => ?_, h⟩
  simpa only [Text.slice, List.drop_zero, Nat.sub_zero] using hu.takeStart

theorem From.behind {n : Nat} {u u' : Token} (h : At s t n u u') :
    From s t (n + 1) u.stop u'.stop :=
  ⟨fun hm hv => h.slice_inner hv (Nat.le_of_succ_le hm), h.dropStop⟩

theorem From.succ {n start start' : Nat} (h : From s t n start start') :
    From s t (n + 1) start start' :=
  ⟨fun hm hv => h.slice (by omega) hv, h.drop⟩

theorem piecesFrom (h : Alike s t) {ts : List Token} {n start start' : Nat} (depth : Int)
    (hts : s.tokens.drop n = ts) (hfrom : From s t n start start') :
    List.Forall₂ Alike (Text.piecesFrom s depth start ts)
      (Text.piecesFrom t depth start' (t.tokens.drop n)) := by
  induction ts generalizing n start start' depth with
  | nil =>
    rw [List.drop_eq_nil_iff, h.length_tokens] at hts
    rw [List.drop_eq_nil_of_le hts]
    exact .cons hfrom.drop .nil
  | cons u ts ih =>
    have hu : s.tokens[n]? = some u := by
      rw [← List.head?_drop, hts]
      rfl
    have hrest : s.tokens.drop (n + 1) = ts := by
      rw [← List.drop_drop, hts, List.drop_one, List.tail_cons]
    obtain ⟨v, hv⟩ := h.exists_at hu
    obtain ⟨hlt, hget⟩ := List.getElem?_eq_some_iff.1 hv.right
    rw [List.drop_eq_getElem_cons hlt, hget, Text.piecesFrom, Text.piecesFrom, hv.brackets_eq.1,
      hv.brackets_eq.2, hv.isPunct_eq]
    split
    · exact ih (depth + 1) hrest hfrom.succ
    · split
      · exact ih (depth - 1) hrest hfrom.succ
      · split
        · exact .cons (hfrom.slice (Nat.le_refl n) hv) (ih depth hrest (.behind hv))
        · exact ih depth hrest hfrom.succ

theorem entries (h : Alike s t) : List.Forall₂ Alike s.entries t.entries := by
  have hpieces : List.Forall₂ Alike (Text.piecesFrom s 0 0 s.tokens)
      (Text.piecesFrom t 0 0 t.tokens) := h.piecesFrom 0 rfl (.zero h)
  rw [Text.entries, Text.entries, List.filter_map, List.filter_map]
  refine List.rel_map (fun _ _ h => h.trim) (List.rel_filter (fun a b h => ?_) hpieces)
  simp only [Function.comp_apply, h.trim_isEmpty]

end Alike

/-! ## Attributes -/

/-- An attribute is a hash and a group of square brackets. -/
theorem attributeEnd?_eq_some_iff {n : Nat} : attributeEnd? s = some n ↔
    ∃ hash opener close closer, s.tokens[0]? = some hash ∧ s.tokens[1]? = some opener ∧
      hash.isPunct ['#'] = true ∧ opener.isPunct ['['] = true ∧
      Token.findClosing s.tokens 1 = some close ∧ s.tokens[close]? = some closer ∧
      closer.stop = n := by
  rw [attributeEnd?]
  constructor
  · intro h
    split at h
    · rename_i hash opener rest hts
      split at h
      · rename_i hsigns
        simp only [Option.bind_eq_bind, Option.bind_eq_some_iff, Option.pure_def, Option.some.injEq] at h
        obtain ⟨close, hclose, closer, hcloser, hstop⟩ := h
        rw [Bool.and_eq_true] at hsigns
        rw [hts]
        exact ⟨hash, opener, close, closer, rfl, rfl, hsigns.1, hsigns.2, hclose, hcloser, hstop⟩
      · simp at h
    · simp at h
  · rintro ⟨hash, opener, close, closer, hzero, hone, hhash, hopener, hclose, hcloser, rfl⟩
    split
    · rename_i a b rest hts
      rw [hts] at hzero hone hclose hcloser
      obtain rfl : a = hash := by simpa using hzero
      obtain rfl : b = opener := by simpa using hone
      simp only [hhash, hopener, hclose, hcloser, Bool.and_self, if_true, Option.bind_eq_bind,
        Option.bind_some, Option.pure_def]
    · rename_i hnot
      cases hts : s.tokens with
      | nil => simp [hts] at hzero
      | cons a rest =>
        cases rest with
        | nil => simp [hts] at hone
        | cons b rest => exact absurd hts (hnot a b rest)

namespace Alike

theorem attributeEnd? (h : Alike s t) {n : Nat} (hn : Text.attributeEnd? s = some n) :
    ∃ n', Text.attributeEnd? t = some n' ∧ Alike (s.drop n) (t.drop n') := by
  obtain ⟨hash, opener, close, closer, hzero, hone, hhash, hopener, hclose, hcloser, rfl⟩ :=
    attributeEnd?_eq_some_iff.1 hn
  obtain ⟨hash', hhash'⟩ := h.exists_at hzero
  obtain ⟨opener', hopener'⟩ := h.exists_at hone
  obtain ⟨closer', hcloser'⟩ := h.exists_at hcloser
  refine ⟨closer'.stop, attributeEnd?_eq_some_iff.2 ⟨hash', opener', close, closer', hhash'.right,
    hopener'.right, ?_, ?_, ?_, hcloser'.right, rfl⟩, hcloser'.dropStop⟩
  · rw [hhash'.isPunct_eq, hhash]
  · rw [hopener'.isPunct_eq, hopener]
  · rw [← Token.findClosing_outline, h.outlines, Token.findClosing_outline, hclose]

end Alike

/-- Texts that stay related when they are trimmed and when a first attribute goes are related without
their attributes. -/
theorem withoutAttributes_rel {R : Text → Text → Prop} (hsymm : ∀ {s t}, R s t → R t s)
    (htrim : ∀ {s t}, R s t → R (Text.trim s) (Text.trim t))
    (hend : ∀ {s t}, R s t → ∀ {n}, Text.attributeEnd? s = some n →
      ∃ n', Text.attributeEnd? t = some n' ∧ R (s.drop n) (t.drop n'))
    (h : R s t) : R (Text.withoutAttributes s) (Text.withoutAttributes t) := by
  induction s using Text.withoutAttributes.induct generalizing t with
  | case1 s hnone =>
    have hnone' : Text.attributeEnd? t = none := by
      cases hsome : Text.attributeEnd? t with
      | none => rfl
      | some n =>
        obtain ⟨m, hm, -⟩ := hend (hsymm h) hsome
        rw [hnone] at hm
        simp at hm
    rw [withoutAttributes_of_none hnone, withoutAttributes_of_none hnone']
    exact htrim h
  | case2 s n hsome _ ih =>
    obtain ⟨n', hsome', hdrop⟩ := hend h hsome
    rw [withoutAttributes_of_some hsome, withoutAttributes_of_some hsome']
    exact ih hdrop

/-- Alike texts are alike without their attributes. -/
theorem Alike.withoutAttributes (h : Alike s t) :
    Alike (Text.withoutAttributes s) (Text.withoutAttributes t) :=
  withoutAttributes_rel Alike.symm Alike.trim (fun h _ hn => h.attributeEnd? hn) h

end DocScaffold.Text
