import DocScaffold.Proofs.Fields

/-!
# Tuple fields

A type stands behind its visibility, and a parenthesis behind a bare `pub` may open either the type or a
scope. The word behind the parenthesis tells which: a type like `(crate::A, u8)` is taken for a scope and
lost, and every other type is read back (`Frame.reads_tuple`).
-/

namespace DocScaffold

open Text

namespace Token

/-- Among tokens that leave no bracket open, an open group is closed somewhere. -/
theorem isSome_closingFrom {ts us : List Token} {depth : Nat}
    (h : outside opens closes (depth + 1) ts = some us) :
    (closingFrom ((depth + 1 : Nat) : Int) ts).isSome = true := by
  replace h := outside_of_eq_some h
  generalize hd : depth + 1 = d at h
  induction h generalizing depth with
  | nil => exact absurd hd (Nat.succ_ne_zero depth)
  | opener hopens _ ih =>
    subst hd
    rw [closingFrom, if_pos hopens, Option.isSome_map]
    exact ih rfl
  | @closer d t ts us hopens hcloses _ ih =>
    obtain rfl : depth = d := Nat.succ.inj hd
    rw [closingFrom, hopens, hcloses, if_neg (by decide), if_pos rfl]
    cases depth with
    | zero => rfl
    | succ depth =>
      have hone : ((depth + 1 + 1 : Nat) : Int) - 1 = ((depth + 1 : Nat) : Int) := by omega
      rw [if_neg (by omega), hone, Option.isSome_map]
      exact ih rfl
  | outer => exact absurd hd (Nat.succ_ne_zero depth)
  | inner hopens hcloses _ ih =>
    rw [closingFrom, hopens, hcloses, if_neg (by decide), if_neg (by decide), Option.isSome_map]
    exact ih hd

/-- A group that opens behind one token ends with one of the tokens behind that. -/
theorem exists_closer {t opener : Token} {rest us : List Token} (hopener : opener.opens = true)
    (h : outside opens closes 0 (opener :: rest) = some us) :
    ∃ n, ∃ closer ∈ rest, findClosing (t :: opener :: rest) 1 = some n ∧
      (t :: opener :: rest)[n]? = some closer := by
  rw [outside, if_pos hopener] at h
  obtain ⟨m, hm⟩ := Option.isSome_iff_exists.1 (isSome_closingFrom h)
  have hlt := closingFrom_lt hm
  refine ⟨m + 1 + 1, rest[m], List.getElem_mem hlt, ?_, ?_⟩
  · have hfrom : closingFrom (0 + 1) rest = some m := hm
    rw [findClosing, List.drop_succ_cons, List.drop_zero, closingFrom, if_pos hopener, hfrom]
    rfl
  · rw [List.getElem?_cons_succ, List.getElem?_cons_succ, List.getElem?_eq_getElem hlt]

end Token

theorem Text.length_trim_le (s : Text) : s.trim.length ≤ s.length := by
  rw [trim, trimEnd, List.length_reverse]
  refine (List.dropWhile_suffix _).length_le.trans ?_
  rw [List.length_reverse]
  exact (List.dropWhile_suffix _).length_le

namespace Modifiers

/-! ## A visibility in front of a type -/

/-- A visibility without the space behind it. -/
def clauseText : Visibility → Text
  | .inherited => []
  | .everywhere => "pub"
  | .within scope => "pub(".toList ++ scope ++ [')']

theorem clauseText_space {v : Visibility} (hv : v ≠ .inherited) (p : Text) :
    clauseText v ++ ' ' :: p = visibilityText v ++ p := by
  cases v with
  | inherited => exact absurd rfl hv
  | everywhere => rfl
  | within scope => simp [clauseText, visibilityText]

/-- A bare `pub` takes a group that looks like its scope with it. -/
theorem withoutVisibility_misread {p : Text} (hp : Solid p) (hbalanced : isBalanced p = true)
    (h : beginsScope p.tokens = true) :
    (visibilityText .everywhere ++ p).withoutVisibility ≠ p := by
  obtain ⟨outer, houter⟩ := outside_of_isBalanced hbalanced 4
  rw [← beginsScope_shift 4, ← tokensAt_eq_shift] at h
  have htokens := (spaced_visibilityText (v := .everywhere) (by simp)).tokensAt_append hp.head 0
  rw [tokensAt_everywhere, ← tokens_eq_tokensAt, List.singleton_append] at htokens
  have hfour : 0 + (visibilityText .everywhere).length = 4 := rfl
  rw [hfour] at htokens
  obtain ⟨opener, head, rest, hsplit⟩ : ∃ opener head rest,
      tokensAt 4 p = opener :: head :: rest := by
    match hts : tokensAt 4 p with
    | [] | [_] => simp [hts, beginsScope] at h
    | opener :: head :: rest => exact ⟨opener, head, rest, rfl⟩
  rw [hsplit] at h houter htokens
  have hscope : opener.isPunct ['('] = true ∧ isScopeHead head = true := by
    rw [beginsScope, Bool.and_eq_true] at h
    exact h
  obtain ⟨n, closer, hmem, hclosing, hcloser⟩ := Token.exists_closer
    (t := ⟨.ident, "pub".toList, 0, 3⟩) (by simp [Token.opens, hscope.1]) houter
  have hend : visibilityEnd? (visibilityText .everywhere ++ p).tokens = some closer.stop := by
    rw [htokens]
    exact visibilityEnd?_scope (by decide) hscope.1 hscope.2 hclosing hcloser
  -- The scope is part of the type, so less than the type is left.
  have hplace : closer ∈ tokensAt 4 p := by
    rw [hsplit]
    exact List.mem_cons_of_mem _ hmem
  have hspan := Lexeme.span_of_mem_tokensFrom (fun _ hl => text_ne_nil_of_mem_lexemes hl) hplace
  have hlength := length_trim_le ((visibilityText .everywhere ++ p).drop closer.stop)
  have hpositive := List.length_pos_iff.2 hp.nonempty
  rw [List.length_drop, List.length_append] at hlength
  rw [withoutVisibility, hend]
  intro heq
  dsimp only at heq
  rw [heq] at hlength
  omega

end Modifiers

namespace Item

/-- A field of a tuple struct as it is written. -/
structure WrittenType where
  visibility : Visibility
  type : Text

namespace WrittenType

def text (w : WrittenType) : Text := Modifiers.visibilityText w.visibility ++ w.type

/-- The brackets of the type close, nothing in it is left open, and it begins with neither a visibility
nor an attribute. -/
structure IsProper (w : WrittenType) : Prop where
  scope : ∀ scope, w.visibility = .within scope → Modifiers.IsScope scope
  solid : Solid w.type
  balanced : isBalanced w.type = true
  head : ∀ t ∈ w.type.tokens.head?, t.isIdent "pub" = false ∧ t.isPunct ['#'] = false

/-- The type is taken for the scope of the bare `pub` in front of it. -/
def IsMisread (w : WrittenType) : Prop :=
  w.visibility = .everywhere ∧ Modifiers.beginsScope w.type.tokens = true

instance (w : WrittenType) : Decidable w.IsMisread := inferInstanceAs (Decidable (_ ∧ _))

variable {w : WrittenType} (hw : w.IsProper)

include hw

theorem solid_text : Solid w.text :=
  (Modifiers.spaced_visibilityText hw.scope).solid_append hw.solid

theorem isWhole_text (h : isWhole w.type = true) : isWhole w.text = true :=
  (Modifiers.spaced_visibilityText hw.scope).isWhole_append (Modifiers.isWhole_visibilityText hw.scope)
    hw.solid h

/-- A type has no attributes in front, with its visibility or without. -/
theorem withoutAttributes_text : w.text.withoutAttributes = w.text := by
  refine (withoutAttributes_of_head fun t ht => ?_).trans (solid_text hw).trim_eq
  have htokens := (Modifiers.spaced_visibilityText hw.scope).tokensAt_append hw.solid.head 0
  rw [text, tokens_eq_tokensAt, htokens, tokensAt_eq_shift (0 + _)] at ht
  cases hv : w.visibility with
  | inherited =>
    have hnil : tokensAt 0 (Modifiers.visibilityText .inherited) = [] := tokensAt_nil 0
    rw [hv, hnil, List.nil_append, List.head?_map, Option.mem_def, Option.map_eq_some_iff] at ht
    obtain ⟨u, hu, rfl⟩ := ht
    rw [Token.shift_isPunct, (hw.head u hu).2]
  | everywhere =>
    rw [hv, Modifiers.tokensAt_everywhere] at ht
    obtain rfl : _ = t := by simpa using ht
    rfl
  | within scope =>
    rw [hv, Modifiers.tokensAt_within (hw.scope scope hv)] at ht
    obtain rfl : _ = t := by simpa using ht
    rfl

/-- A type is read back exactly when it is not taken for a scope. -/
theorem withoutVisibility_text_iff : w.text.withoutVisibility = w.type ↔ ¬ w.IsMisread := by
  constructor
  · rintro h ⟨hv, hscope⟩
    rw [text, hv] at h
    exact Modifiers.withoutVisibility_misread hw.solid hw.balanced hscope h
  · intro h
    refine Modifiers.withoutVisibility_text hw.scope hw.solid (fun hv => ?_)
      fun _ t ht => (hw.head t ht).1
    exact Bool.eq_false_iff.2 fun hscope => h ⟨hv, hscope⟩

theorem withoutVisibility_clause_iff :
    (Modifiers.clauseText w.visibility ++ ' ' :: w.type).withoutVisibility = w.type ↔
      ¬ w.IsMisread := by
  by_cases hv : w.visibility = .inherited
  · have htokens : tokens (' ' :: w.type) = tokensAt 1 w.type := tokensAt_space 0 hw.solid.head
    have hnone : visibilityEnd? (tokens (' ' :: w.type)) = none := by
      refine Modifiers.visibilityEnd?_of_head fun t ht => ?_
      rw [htokens, tokensAt_eq_shift, List.head?_map, Option.mem_def, Option.map_eq_some_iff] at ht
      obtain ⟨u, hu, rfl⟩ := ht
      rw [Token.shift_isIdent, (hw.head u hu).1]
    rw [hv, Modifiers.clauseText, List.nil_append, withoutVisibility, hnone]
    exact iff_of_true (trim_space hw.solid) fun h => absurd (hv.symm.trans h.1) (by decide)
  · rw [Modifiers.clauseText_space hv]
    exact withoutVisibility_text_iff hw

end WrittenType

namespace Struct

theorem map_type_mapIdx (types : List Text) :
    (types.mapIdx fun i type => (⟨fieldName i, type⟩ : Member)).map Member.type = types :=
  List.ext_getElem (by simp) (by simp)

/-- Written types are read back exactly when none of them is taken for a scope. -/
theorem tupleFields_listed_iff {ws : List WrittenType} (h : ∀ w ∈ ws, w.IsProper)
    (hwhole : ∀ w ∈ ws, isWhole w.type = true) :
    tupleFields (listed (ws.map WrittenType.text)) =
        ((ws.map WrittenType.type).mapIdx fun i type => ⟨fieldName i, type⟩) ↔
      ∀ w ∈ ws, ¬ w.IsMisread := by
  have hentries := entries_listed (List.forall_mem_map.2 fun w hw => WrittenType.solid_text (h w hw))
    (List.forall_mem_map.2 fun w hw => WrittenType.isWhole_text (h w hw) (hwhole w hw))
  have hread : (ws.map WrittenType.text).map (fun entry => entry.withoutAttributes.withoutVisibility) =
      ws.map fun w => w.text.withoutVisibility := by
    rw [List.map_map, List.map_inj_left]
    intro w hw
    rw [Function.comp_apply, WrittenType.withoutAttributes_text (h w hw)]
  have hiff : (ws.map fun w => w.text.withoutVisibility) = ws.map WrittenType.type ↔
      ∀ w ∈ ws, ¬ w.IsMisread := by
    rw [List.map_inj_left]
    exact forall₂_congr fun w hw => WrittenType.withoutVisibility_text_iff (h w hw)
  rw [tupleFields, hentries, hread, ← hiff]
  constructor
  · intro heq
    -- As many types are kept as there are entries, so none of them is left out.
    have htypes := congrArg (List.map Member.type) heq
    rw [map_type_mapIdx, map_type_mapIdx] at htypes
    have hall := List.length_filter_eq_length_iff.1 (show
      ((ws.map fun w => w.text.withoutVisibility).filter fun type => !type.isEmpty).length =
        (ws.map fun w => w.text.withoutVisibility).length by rw [htypes]; simp)
    rwa [List.filter_eq_self.2 hall] at htypes
  · intro heq
    have hkeep : (ws.map WrittenType.type).filter (fun type => !type.isEmpty) =
        ws.map WrittenType.type := by
      rw [List.filter_eq_self, List.forall_mem_map]
      intro w hw
      simpa using (h w hw).solid.nonempty
    rw [heq, hkeep]

section Tokens

variable {s : Text} {front generics inner rest outer : List Token} {keyword name opener closer : Token}

/-- Where the parts of a tuple struct stand among its tokens. -/
theorem parse?_of_tokens
    (htokens : s.tokens =
      front ++ (keyword :: name :: (generics ++ opener :: (inner ++ closer :: rest))))
    (hkeyword : Token.findKeyword Keyword.struct.text s.tokens = some front.length)
    (hgenerics : Function.IsGenerics generics) (hopener : opener.isPunct ['('] = true)
    (hinner : Token.outside Token.opens Token.closes 0 inner = some outer)
    (hcloser : closer.isPunct [')'] = true) :
    parse? s = some ⟨name.value, true, tupleFields (s.slice opener.stop closer.start), s.isExposed⟩ := by
  have hsign : opener.isPunct ['<'] = false ∧ opener.isIdent "where" = false := by
    simp only [Token.isPunct, Bool.and_eq_true, beq_iff_eq] at hopener
    simp [Token.isPunct, Token.isIdent, hopener]
  have hcloses : closer.opens = false ∧ closer.closes = true := by
    simp only [Token.isPunct, Bool.and_eq_true, beq_iff_eq] at hcloser
    simp [Token.opens, Token.closes, Token.isPunct, hcloser]
  have hsplit : s.tokens = (front ++ [keyword, name]) ++
      (generics ++ opener :: (inner ++ closer :: rest)) := by
    rw [htokens]
    simp
  have hlength : (front ++ [keyword, name]).length = front.length + 2 := by simp
  have hskip : Token.skipAngles s.tokens (front.length + 2) =
      some (front.length + 2 + generics.length) := by
    rw [← hlength, hsplit]
    exact Function.skipAngles_generics hgenerics hsign.1
  have hplace : ((front ++ [keyword, name]) ++ generics).length =
      front.length + 2 + generics.length := by
    rw [List.length_append, hlength]
  have hopens : opener.opens = true := by simp [Token.opens, hopener]
  have hbody := Token.bodyText_group s ((front ++ [keyword, name]) ++ generics) rest hopens hinner hcloses
  rw [List.append_assoc, ← hsplit, hplace] at hbody
  have hnamed : s.tokens[front.length + 1]? = some name := by
    rw [htokens, List.getElem?_append_right (by omega), Nat.add_sub_cancel_left]
    rfl
  have hopened : s.tokens[front.length + 2 + generics.length]? = some opener := by
    rw [← List.head?_drop, hsplit, ← List.append_assoc, ← hplace, List.drop_left]
    rfl
  rw [parse?]
  simp only [bodyIndex?, hkeyword, hnamed, hskip, hopened, hsign.2, hopener, hbody,
    Option.bind_eq_bind, Option.bind_some, Option.pure_def, if_true, if_false, Bool.false_eq_true]

end Tokens

end Struct

namespace Frame

/-! ## Tuple structs -/

/-- A tuple struct up to its opening parenthesis. -/
def roundText (f : Frame) : Text :=
  Modifiers.visibilityText f.visibility ++
    (Keyword.struct.text ++ ' ' :: (f.name ++ (Header.genericsText f.generics ++ ['('])))

/-- A tuple struct with fields as they are written; bounds and a semicolon stand behind it. -/
def tupleText (f : Frame) (fields : List Text) (behind : Text) : Text :=
  f.roundText ++ (listed fields ++ ')' :: behind)

variable {f : Frame} (hf : f.IsProper)

include hf

/-- The tokens of a tuple struct with a balanced body, part by part. -/
theorem tokens_round {body : Text} (hbody : isBalanced body = true) (behind : Text) :
    ∃ a b c d e n, n = f.roundText.length ∧ (f.roundText ++ (body ++ ')' :: behind)).tokens =
      tokensAt 0 (Modifiers.visibilityText f.visibility) ++
        (⟨.ident, Keyword.struct.text, a, b⟩ :: ⟨.ident, f.name, c, d⟩ ::
          (tokensAt d (Header.genericsText f.generics) ++ ⟨.punct, ['('], e, n⟩ :: (tokensAt n body ++
            ⟨.punct, [')'], n + body.length, n + body.length + 1⟩ ::
              tokensAt (n + body.length + 1) behind))) := by
  have hkeyword := isToken_keyword .struct
  have hspaced := hkeyword.spaced (by decide) hkeyword.ident_solid.head
  have hvisibility := (Modifiers.spaced_visibilityText hf.scope).tokensAt_append hspaced.head 0
  rw [isBalanced, Bool.and_eq_true] at hbody
  obtain ⟨c, u, hmark, hmarked⟩ := Header.exists_mark f.generics (body ++ ')' :: behind)
  have hapart : Apart f.name (Header.genericsText f.generics ++ '(' :: (body ++ ')' :: behind)) := by
    rw [hmark]
    exact Apart.of_head fun x _ => apart_mark hmarked
  have htext : f.roundText ++ (body ++ ')' :: behind) =
      (Modifiers.visibilityText f.visibility ++ (Keyword.struct.text ++ [' '])) ++
        (f.name ++ (Header.genericsText f.generics ++ '(' :: (body ++ ')' :: behind))) := by
    simp [roundText]
  have hlength : (Modifiers.visibilityText f.visibility).length + (Keyword.struct.text ++ [' ']).length +
      f.name.length + (Header.genericsText f.generics).length + 1 = f.roundText.length := by
    simp only [roundText, List.length_append, List.length_cons, List.length_nil]
    omega
  have htokens := (spaced_headText hf .struct).tokensAt_append
    (head_name hf (Header.genericsText f.generics ++ '(' :: (body ++ ')' :: behind))) 0
  rw [← htext, hvisibility, hkeyword.tokensAt_spaced (by decide), List.length_append, Nat.zero_add,
    Nat.zero_add, tokensAt_append _ (hf.name.isClosed (by decide)) hapart, hf.name.tokensAt,
    tokensAt_append _ (isClosed_genericsText hf) (Apart.of_head fun x _ => apart_mark (by decide)),
    tokensAt_plain _ (by decide),
    tokensAt_append _ hbody.1 (Apart.of_head fun x _ => apart_mark (by decide)),
    tokensAt_plain _ (by decide), hlength] at htokens
  simp only [List.append_assoc, List.singleton_append] at htokens
  exact ⟨_, _, _, _, _, _, rfl, htokens⟩

/-- A tuple struct is read with the fields of its body. -/
theorem parse?_round {body : Text} (hbody : isBalanced body = true) (behind : Text) :
    Struct.parse? (f.roundText ++ (body ++ ')' :: behind)) =
      some ⟨f.name, true, Struct.tupleFields body,
        (f.roundText ++ (body ++ ')' :: behind)).isExposed⟩ := by
  obtain ⟨a, b, c, d, e, n, rfl, htokens⟩ := tokens_round hf hbody behind
  obtain ⟨outer, houter⟩ := outside_of_isBalanced hbody f.roundText.length
  have hkeyword : Token.findKeyword Keyword.struct.text
      (f.roundText ++ (body ++ ')' :: behind)).tokens =
        some (tokensAt 0 (Modifiers.visibilityText f.visibility)).length := by
    rw [htokens]
    exact (Modifiers.quiet_visibilityText hf.scope).findKeyword (by simp [Token.isIdent]) rfl
  have hparse := Struct.parse?_of_tokens htokens hkeyword (Header.isGenerics_text hf.generics d)
    (by simp [Token.isPunct]) houter (by simp [Token.isPunct])
  rwa [slice_middle] at hparse

/-- Behind its visibility and a space a type stays exactly when it is not taken for the scope of a bare
`pub`. A tuple struct is always read, and its fields are the written types, numbered in their order,
exactly when none of them is taken for a scope. -/
theorem reads_tuple :
    (∀ w : WrittenType, w.IsProper →
      ((Modifiers.clauseText w.visibility ++ ' ' :: w.type).withoutVisibility = w.type ↔
        ¬ w.IsMisread)) ∧
    ∀ ws : List WrittenType, (∀ w ∈ ws, w.IsProper ∧ isWhole w.type = true) → ∀ behind,
      ∃ t, Struct.parse? (f.tupleText (ws.map WrittenType.text) behind) = some t ∧ t.name = f.name ∧
        t.isTuple = true ∧
        (t.fields = ((ws.map WrittenType.type).mapIdx fun i type => ⟨Struct.fieldName i, type⟩) ↔
          ∀ w ∈ ws, ¬ w.IsMisread) := by
  refine ⟨fun w hw => WrittenType.withoutVisibility_clause_iff hw, fun ws hws behind => ?_⟩
  have hproper : ∀ w ∈ ws, w.IsProper := fun w hw => (hws w hw).1
  have hwhole : ∀ w ∈ ws, isWhole w.type = true := fun w hw => (hws w hw).2
  have hbody : isBalanced (listed (ws.map WrittenType.text)) = true :=
    isBalanced_listed (List.forall_mem_map.2 fun w hw => WrittenType.solid_text (hproper w hw))
      (List.forall_mem_map.2 fun w hw => WrittenType.isWhole_text (hproper w hw) (hwhole w hw))
  exact ⟨_, parse?_round hf hbody behind, rfl, rfl, Struct.tupleFields_listed_iff hproper hwhole⟩

/-- A tuple struct with visibilities of every kind. -/
def route : Frame where
  visibility := .everywhere
  name := "Route"
  generics := some "'a, K: Ord".toList
  bounds := none

def routeTypes : List WrittenType :=
  [⟨.inherited, "&'a [K; 4]"⟩, ⟨.everywhere, "(u8, K)"⟩, ⟨.within "super", "(crate::A, K)"⟩,
    ⟨.within "in crate::net", "(self::B)"⟩]

def routeText : Text :=
  "pub struct Route<'a, K: Ord>(&'a [K; 4], pub (u8, K), pub(super) (crate::A, K), ".toList ++
    "pub(in crate::net) (self::B));".toList

omit hf in
theorem reads_tuple_route : route.tupleText (routeTypes.map WrittenType.text) ";" = routeText ∧
    ∃ t, Struct.parse? (route.tupleText (routeTypes.map WrittenType.text) ";") = some t ∧
      t.name = route.name ∧ t.isTuple = true ∧
      t.fields = (routeTypes.map WrittenType.type).mapIdx fun i type => ⟨Struct.fieldName i, type⟩ := by
  have hframe : route.IsProper := by
    constructor
    · simp [route]
    · decide +kernel
    · rintro inner h
      obtain rfl : _ = inner := by simpa [route] using h
      unfold Token.BalancesAtEnd
      decide +kernel
    · simp [route]
  have htypes : ∀ w ∈ routeTypes, w.IsProper ∧ isWhole w.type = true := by
    intro w hw
    simp only [routeTypes, List.mem_cons, List.not_mem_nil, or_false] at hw
    rcases hw with rfl | rfl | rfl | rfl
    · exact ⟨⟨by simp, Lexeme.solid_of_ends (d := ']') (by decide) (by decide) rfl, by decide +kernel,
        by decide +kernel⟩, by decide +kernel⟩
    · exact ⟨⟨by simp, Lexeme.solid_of_ends (d := ')') (by decide) (by decide) rfl, by decide +kernel,
        by decide +kernel⟩, by decide +kernel⟩
    · refine ⟨⟨?_, Lexeme.solid_of_ends (d := ')') (by decide) (by decide) rfl, by decide +kernel,
        by decide +kernel⟩, by decide +kernel⟩
      rintro scope h
      obtain rfl : _ = scope := by simpa using h
      left
      decide
    · refine ⟨⟨?_, Lexeme.solid_of_ends (d := ')') (by decide) (by decide) rfl, by decide +kernel,
        by decide +kernel⟩, by decide +kernel⟩
      rintro scope h
      obtain rfl : _ = scope := by simpa using h
      right
      refine ⟨⟨false, "crate", ["net".toList]⟩, ?_, by decide⟩
      intro segment hsegment
      simp only [List.mem_cons, List.not_mem_nil, or_false] at hsegment
      rcases hsegment with rfl | rfl <;> decide +kernel
  obtain ⟨t, hparse, hname, htuple, hfields⟩ := (reads_tuple hframe).2 routeTypes htypes ";"
  exact ⟨by decide +kernel, t, hparse, hname, htuple, hfields.2 (by decide +kernel)⟩

-- The first type is taken for a scope, so the second one gets its number.
example : (Struct.parse? "struct Pair(pub (crate::A, u8), u16);").map Struct.fields =
    some [⟨"field_0", "u16"⟩] := by
  decide +kernel

end Frame

end Item

end DocScaffold
