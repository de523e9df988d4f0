import DocScaffold.Proofs.Qualifiers
import DocScaffold.Proofs.Rows
import DocScaffold.Proofs.Starts

/-!
# Declarations over several rows

A search that meets the first row of a declaration takes the pieces of its rows up to the first one
that ends it (`search_rows`). The first row starts the declaration when it holds the modifiers, the
keyword and the name (`starts_of_tokens`).
-/

namespace DocScaffold

open Text

/-- An identifier begins with a word character. -/
theorem Lexeme.head_of_ident {s : Text} {l : Lexeme} (hl : l ∈ lexemes s)
    (hkind : l.kind = .token .ident) : ∀ c ∈ l.text.head?, isWord c = true := by
  obtain ⟨t, rest, hfirst⟩ := exists_first?_of_mem hl
  intro c hc
  have hcut := cutIdent_of_first? hfirst hkind
  have hsome := isSome_cutIdent t
  rw [hcut, ← (isCut_cutIdent _ _ _ hcut).2,
    List.head?_append_of_ne_nil _ (List.ne_nil_of_mem (List.mem_of_mem_head? hc)),
    Option.mem_def.1 hc] at hsome
  exact isWord_of_isNameStart c (by simpa using hsome)

/-! ## Laid out texts -/

/-- The first piece of a text has its first tokens. -/
theorem Text.Breaks.prefix_tokens {s p : Text} {ps : List Text} (h : Breaks s (p :: ps)) :
    p.tokens <+: s.tokens := by
  cases h with
  | last _ => exact List.prefix_refl _
  | cons _ _ gap _ =>
    rw [tokens, tokens, show lexemes _ = _ from gap, tokensFrom_append]
    exact List.prefix_append _ _

/-- The rows hold a text piece by piece, the first of them its first `n` tokens. -/
structure Row.Lay (s : Text) (n : Nat) (rows : List Row) : Prop where
  proper : ∀ r ∈ rows, r.IsProper
  breaks : Breaks s (Row.contents rows)
  head : ∀ r ∈ rows.head?, n ≤ r.content.tokens.length
  last : ∀ r ∈ rows.getLast?, r.content ≠ []

namespace Row.Lay

variable {s : Text} {n : Nat} {rows : List Row}

theorem settled (h : Row.Lay s n rows) (hs : Settled s) : ∀ r ∈ rows, Settled r.content :=
  fun _ => Row.settled_of_contents (h.breaks.settled_of_mem hs)

/-- What a text begins with stands in the first row. -/
theorem prefix_head (h : Row.Lay s n rows) {ts : List Token} (hts : ts <+: s.tokens)
    (hne : ts ≠ []) (hlength : ts.length ≤ n) : ∀ r ∈ rows.head?, ts <+: r.content.tokens := by
  intro r hr
  obtain ⟨rest, rfl⟩ := List.head?_eq_some_iff.1 hr
  have hle := hlength.trans (h.head r hr)
  have hnil : r.content ≠ [] := by
    intro hnil
    rw [hnil, tokens_eq_tokensAt, tokensAt_nil, List.length_nil, Nat.le_zero,
      List.length_eq_zero_iff] at hle
    exact hne hle
  have hbreaks := h.breaks
  rw [← List.singleton_append, contents_append, contents_singleton hnil] at hbreaks
  exact List.prefix_of_prefix_length_le hts hbreaks.prefix_tokens hle

end Row.Lay

namespace Modifiers

/-- Whether tokens are modifiers in their order, whatever stands in the name of an ABI. -/
def AreWritten (ts : List Token) : Prop :=
  ∃ m : Modifiers, m.IsProper ∧ ts.map Token.outline = m.text.tokens.map Token.outline

theorem AreWritten.isAll {ts : List Token} (h : AreWritten ts) : IsAll ts := by
  obtain ⟨m, hm, houtlines⟩ := h
  refine isAll_of_outlines houtlines ((isAll_iff (m.text ++ [])).2 ?_)
  rw [takeAll_text hm]

end Modifiers

namespace Declaration

open Lexeme

/-! ## Collecting up to an end -/

/-- Whether the last of some cleaned lines ends the declaration, at the given depths in front of
them. -/
def endsBehind (keyword : Keyword) (braces parens : Int) (texts : List Text) : Bool :=
  texts.getLast?.any
    (ends keyword (braces + depthOver '{' '}' texts) (parens + depthOver '(' ')' texts))

theorem depthOver_cons (up down : Char) (text : Text) (texts : List Text) :
    depthOver up down (text :: texts) = Token.netDepth up down text.tokens + depthOver up down texts := by
  simp [depthOver]

theorem endsBehind_singleton (keyword : Keyword) (braces parens : Int) (text : Text) :
    endsBehind keyword braces parens [text] =
      ends keyword (braces + Token.netDepth '{' '}' text.tokens)
        (parens + Token.netDepth '(' ')' text.tokens) text := by
  simp [endsBehind, depthOver]

theorem endsBehind_cons (keyword : Keyword) (braces parens : Int) (text : Text) {texts : List Text}
    (h : texts ≠ []) : endsBehind keyword braces parens (text :: texts) =
      endsBehind keyword (braces + Token.netDepth '{' '}' text.tokens)
        (parens + Token.netDepth '(' ')' text.tokens) texts := by
  obtain ⟨m, rest, rfl⟩ := List.exists_cons_of_ne_nil h
  rw [endsBehind, endsBehind, List.getLast?_cons_cons, depthOver_cons, depthOver_cons '(',
    Int.add_assoc, Int.add_assoc]

/-- The lines are collected up to the first one that ends the declaration. -/
theorem collect_of_endsBehind {keyword : Keyword} {line : Text} (hne : cleaned line ≠ [])
    {braces parens : Int} {front : List Text}
    (hfirst : ∀ a, a <+: cleanedLines front → endsBehind keyword braces parens a = false)
    (hends : endsBehind keyword braces parens (cleanedLines front ++ [cleaned line]) = true)
    (last index : Nat) (later : List Text) :
    collect keyword braces parens last index (front ++ line :: later) =
      (cleanedLines front ++ [cleaned line], index + front.length) := by
  induction front generalizing braces parens last index with
  | nil =>
    rw [show cleanedLines [] = [] from rfl, List.nil_append, endsBehind_singleton] at hends
    rw [List.nil_append, collect]
    dsimp only
    rw [if_neg (by simpa using hne), if_pos hends]
    rfl
  | cons l front ih =>
    rw [List.cons_append, collect]
    dsimp only
    rw [cleanedLines_cons] at hfirst hends ⊢
    by_cases hempty : (cleaned l).isEmpty = true
    · rw [if_pos hempty] at hfirst hends ⊢
      rw [if_pos hempty, ih hfirst hends, List.length_cons]
      congr 1
      omega
    · rw [if_neg hempty] at hfirst hends ⊢
      have hline : endsBehind keyword braces parens [cleaned l] = false :=
        hfirst _ (by simp [List.cons_prefix_cons])
      rw [endsBehind_singleton] at hline
      have hlater : ∀ a, a <+: cleanedLines front → endsBehind keyword
          (braces + Token.netDepth '{' '}' (cleaned l).tokens)
          (parens + Token.netDepth '(' ')' (cleaned l).tokens) a = false := by
        intro a ha
        by_cases hnil : a = []
        · rw [hnil]
          rfl
        · rw [← endsBehind_cons _ _ _ _ hnil]
          exact hfirst _ (List.cons_prefix_cons.2 ⟨rfl, ha⟩)
      rw [List.cons_append, endsBehind_cons _ _ _ _ (by simp)] at hends
      rw [if_neg hempty, if_neg (by simp [hline]), ih hlater hends]
      dsimp only
      rw [List.length_cons, List.cons_append]
      congr 1
      omega

/-! ## The first row -/

/-- A piece that holds modifiers, the keyword and the name starts a declaration. -/
theorem starts_of_tokens {p : Text} {k : Keyword} {lead more : List Token} {t name : Token}
    (hp : Settled p) (htokens : p.tokens = lead ++ t :: name :: more)
    (ht : Keyword.ofToken? t = some k) (hname : name.kind = .ident)
    (hnone : ∀ u ∈ lead, Keyword.ofToken? u = none) (hall : Modifiers.IsAll lead) :
    Lexeme.Starts k (lexemes p) := by
  obtain ⟨before, after, hls, hlead, -⟩ := split_tokensFrom htokens
  obtain ⟨hkind, hvalue⟩ := Keyword.ofToken?_eq_some ht
  rw [hkind, hvalue] at hls
  have hafter : ∃ offset, tokensFrom offset after = name :: more := by
    have hwhole := htokens
    rw [tokens, hls, tokensFrom_append, hlead, List.append_cancel_left_eq] at hwhole
    exact ⟨_, (List.cons.inj hwhole).2⟩
  obtain ⟨offset, hafter⟩ := hafter
  cases after with
  | nil => simp [tokensFrom] at hafter
  | cons w after =>
    have hw : w ∈ lexemes p := by simp [hls]
    refine ⟨before, w, after, hls, ?_, by rwa [hlead], by rwa [hlead]⟩
    obtain ⟨hloose, hcomment⟩ := hp w hw
    obtain ⟨_, _, hfirst⟩ := exists_first?_of_mem hw
    obtain ⟨kind, text⟩ := w
    obtain ⟨c, u, rfl⟩ := List.exists_cons_of_ne_nil (text_ne_nil_of_mem_lexemes hw)
    have hbehind := head_behind_ident hls rfl c rfl
    cases kind with
    | blank => rfl
    | lineComment => simp [isLoose] at hloose
    | blockComment => exact absurd rfl hcomment
    | stray =>
      rw [(spec_of_stray hfirst rfl c rfl).1] at hbehind
      exact absurd hbehind (by decide)
    | token kind =>
      -- The name does not run together with the keyword.
      obtain rfl : kind = .ident := by
        have hshape := congrArg Token.kind (List.cons.inj hafter).1
        exact hshape.trans hname
      rw [head_of_ident hw rfl c rfl] at hbehind
      exact absurd hbehind (by decide)

/-- The first row of a declaration starts it. -/
theorem starts_of_lay {d : Text} {k : Keyword} {lead more : List Token} {t name : Token}
    {rows : List Row} (htokens : d.tokens = lead ++ t :: name :: more)
    (ht : Keyword.ofToken? t = some k) (hname : name.kind = .ident) (hlead : Modifiers.AreWritten lead)
    (hnone : ∀ u ∈ lead, Keyword.ofToken? u = none) (hsettled : Settled d)
    (hlay : Row.Lay d (lead.length + 2) rows) :
    ∀ r ∈ rows.head?, Lexeme.Starts k (lexemes r.content) := by
  intro r hr
  have hprefix : lead ++ [t, name] <+: d.tokens := ⟨more, by rw [htokens]; simp⟩
  obtain ⟨rest, hrest⟩ := hlay.prefix_head hprefix (by simp) (by simp) r hr
  rw [List.append_assoc] at hrest
  exact starts_of_tokens (hlay.settled hsettled r (List.mem_of_mem_head? hr)) hrest.symm ht hname
    hnone hlead.isAll

/-! ## Searching -/

variable {k : Keyword}

/-- A row starts a declaration when its piece does. -/
theorem keyword?_text {r : Row} (h : r.IsProper) (hs : Settled r.content)
    (hstarts : Lexeme.Starts k (lexemes r.content)) : keyword? (trim r.text) = some k := by
  obtain ⟨w, hw, htext⟩ := Row.beforeLineComment_text h hs
  have hgap : IsGap r.content w := by
    by_cases hnil : w = []
    · rw [hnil]
      exact isGap_nil _
    · have hlast : ∀ c ∈ r.content.getLast?, isBlank c = false := by
        rcases h.content with hcontent | hsolid
        · simp [hcontent]
        · exact hsolid.last
      have hreplaces := replaces_blanks (w := []) (t := []) hlast hw hnil
      rw [List.append_nil, List.append_nil] at hreplaces
      exact lexemes_replaced (isGap_nil _) (fun l hl => (hs l hl).1) hreplaces
  rw [keyword?_eq_some_iff, htext, show lexemes _ = _ from hgap]
  exact hstarts.append _

theorem searchFrom_blanks {blanks : List Text} (h : ∀ line ∈ blanks, ∀ c ∈ line, isBlank c = true)
    (index : Nat) (rest : List Text) :
    searchFrom 0 index (blanks.map trim ++ rest) = searchFrom 0 (index + blanks.length) rest := by
  have hempty : ∀ line ∈ blanks.map trim, line = [] := by
    intro line hline
    obtain ⟨blank, hblank, rfl⟩ := List.mem_map.1 hline
    exact trim_blanks (h blank hblank)
  rw [searchFrom_append (depthBehind?_empty (Int.le_refl 0) hempty), List.length_map]

theorem searchFrom_start {line : Text} {lines : List Text} (hline : lines.head? = some line)
    (h : keyword? line = some k) (index : Nat) :
    searchFrom 0 index lines = .found (gather k index lines) := by
  obtain ⟨rest, rfl⟩ := List.head?_eq_some_iff.1 hline
  rw [searchFrom, step_of_keyword? h]

/-- A declaration is found in its rows, and its pieces are put together up to the row that ends it. -/
theorem search_rows {before blanks after : List Text} {cursor : Nat} {rows : List Row} {last : Row}
    (hcursor : before.length = cursor + 1)
    (hblank : ∀ line ∈ blanks, ∀ c ∈ line, isBlank c = true)
    (hproper : ∀ r ∈ rows ++ [last], r.IsProper)
    (hsettled : ∀ r ∈ rows ++ [last], Settled r.content)
    (hstarts : ∀ r ∈ (rows ++ [last]).head?, Lexeme.Starts k (lexemes r.content))
    (hlast : last.content ≠ [])
    (hfirst : ∀ a, a <+: Row.contents rows → endsBehind k 0 0 a = false)
    (hends : endsBehind k 0 0 (Row.contents (rows ++ [last])) = true) :
    search (before ++ (blanks ++ ((rows ++ [last]).map Row.text ++ after))) cursor =
      .found ⟨(unwords (Row.contents (rows ++ [last]))).collapse, k, cursor + 1 + blanks.length,
        cursor + 1 + blanks.length + rows.length⟩ := by
  have hrows : cleanedLines (rows.map fun r => trim r.text) = Row.contents rows :=
    Row.cleanedLines_text (fun r hr => hproper r (by simp [hr])) fun r hr => hsettled r (by simp [hr])
  have hline := Row.cleaned_text (hproper last (by simp)) (hsettled last (by simp))
  rw [Row.contents_append, Row.contents_singleton hlast] at hends ⊢
  have hlines : ((rows ++ [last]).map Row.text ++ after).map trim =
      (rows.map fun r => trim r.text) ++ trim last.text :: after.map trim := by
    simp [List.map_map, Function.comp_def]
  have hcollect := @collect_of_endsBehind k (trim last.text) (by rwa [hline]) 0 0
    (rows.map fun r => trim r.text) (by rwa [hrows]) (by rwa [hrows, hline])
    (cursor + 1 + blanks.length) (cursor + 1 + blanks.length) (after.map trim)
  rw [hrows, hline, List.length_map] at hcollect
  obtain ⟨r, rest, hr⟩ := List.exists_cons_of_ne_nil (l := rows ++ [last]) (by simp)
  have hkeyword : keyword? (trim r.text) = some k :=
    keyword?_text (hproper r (by simp [hr])) (hsettled r (by simp [hr])) (hstarts r (by simp [hr]))
  have hhead : (((rows ++ [last]).map Row.text ++ after).map trim).head? = some (trim r.text) := by
    rw [hr]
    rfl
  rw [search, ← hcursor, List.drop_left, List.map_append, searchFrom_blanks hblank,
    searchFrom_start hhead hkeyword, hlines, hcursor, gather, hcollect]

end Declaration

end DocScaffold
