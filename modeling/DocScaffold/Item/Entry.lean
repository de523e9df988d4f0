import DocScaffold.Item.Modifiers
import DocScaffold.Token.Span

/-!
# Entries of a body

A body is cut into entries at the commas outside all brackets. An entry is a parameter, a field, or a
variant, and may begin with attributes and a visibility.
-/

namespace DocScaffold.Text

/-- The stretches between the commas at depth zero, the first of which begins at `start`. -/
def piecesFrom (s : Text) (depth : Int) (start : Nat) : List Token → List Text
  | [] => [s.drop start]
  | t :: rest =>
    if t.opens then piecesFrom s (depth + 1) start rest
    else if t.closes then piecesFrom s (depth - 1) start rest
    else if t.isPunct [','] && depth == 0 then
      s.slice start t.start :: piecesFrom s depth t.stop rest
    else piecesFrom s depth start rest

/-- The trimmed entries of a body without the empty ones. A comma inside `<…>` separates too. -/
def entries (s : Text) : List Text :=
  ((piecesFrom s 0 0 s.tokens).map trim).filter fun piece => !piece.isEmpty

/-- The end of the attribute `#[…]` that a text begins with. -/
def attributeEnd? (s : Text) : Option Nat :=
  match s.tokens with
  | t :: u :: rest =>
    if t.isPunct ['#'] && u.isPunct ['['] then do
      let close ← Token.findClosing (t :: u :: rest) 1
      let closer ← (t :: u :: rest)[close]?
      return closer.stop
    else none
  | _ => none

theorem attributeEnd?_pos {s : Text} {n : Nat} (h : attributeEnd? s = some n) :
    0 < n ∧ n ≤ s.length := by
  unfold attributeEnd? at h
  split at h
  · rename_i t u rest hts
    split at h
    · simp only [Option.bind_eq_bind, Option.bind_eq_some_iff, Option.pure_def,
        Option.some.injEq] at h
      obtain ⟨close, _, closer, hc, rfl⟩ := h
      have hmem : closer ∈ tokens s := hts ▸ List.mem_of_getElem? hc
      have := span_of_mem_tokens hmem
      omega
    · simp at h
  · simp at h

/-- Without the attributes in front; one that is never closed stays. -/
def withoutAttributes (s : Text) : Text :=
  match h : attributeEnd? s with
  | none => trim s
  | some n =>
    have : s.length - n < s.length := by
      have := attributeEnd?_pos h
      omega
    withoutAttributes (s.drop n)
termination_by s.length

theorem withoutAttributes_of_none {s : Text} (h : attributeEnd? s = none) :
    withoutAttributes s = trim s := by
  rw [withoutAttributes]
  split
  · rfl
  · rename_i hsome
    rw [h] at hsome
    simp at hsome

theorem withoutAttributes_of_some {s : Text} {n : Nat} (h : attributeEnd? s = some n) :
    withoutAttributes s = withoutAttributes (s.drop n) := by
  rw [withoutAttributes]
  split
  · rename_i hnone
    rw [h] at hnone
    simp at hnone
  · rename_i m hm
    rw [Option.some.inj (h.symm.trans hm)]

/-- The end of the visibility that begins a text with the given tokens. -/
def visibilityEnd? (ts : List Token) : Option Nat :=
  match ts with
  | [] => none
  | p :: rest =>
    if p.isIdent "pub" then
      match rest with
      | opener :: head :: _ =>
        if opener.isPunct ['('] && Modifiers.isScopeHead head then
          match (Token.findClosing ts 1).bind (ts[·]?) with
          | some closer => some closer.stop
          | none => some p.stop
        else some p.stop
      | _ => some p.stop
    else none

/-- Without a visibility in front. -/
def withoutVisibility (s : Text) : Text :=
  match visibilityEnd? s.tokens with
  | some n => trim (s.drop n)
  | none => trim s

end DocScaffold.Text

namespace DocScaffold.Item

/-- A name with its type: a parameter or a field. -/
structure Member where
  name : Text
  type : Text
  deriving DecidableEq

/-- A member is cut at its first colon. -/
def Member.ofEntry (s : Text) : Member :=
  let (name, type) := s.cutAt ':'
  ⟨name.trim, type.trim⟩

/-- The rest of a text behind `start` and at least one blank, without the blanks. -/
def dropWord? (start s : Text) : Option Text :=
  if start.isPrefixOf s then
    match s.drop start.length with
    | c :: rest => if Text.isBlank c then some (Text.trimStart rest) else none
    | [] => none
  else none

/-- Drops a lifetime and the blanks behind it. -/
def dropLifetime (s : Text) : Text :=
  match s with
  | '\x27' :: rest =>
    match rest.takeWhile Text.isWord, rest.dropWhile Text.isWord with
    | _ :: _, c :: more => if Text.isBlank c then Text.trimStart more else s
    | _, _ => s
  | _ => s

/-- Whether a parameter is `self`, by value or by reference, `mut` or not. -/
def isReceiver (s : Text) : Bool :=
  let s := s.collapse
  let s := match s with
    | '&' :: rest => dropLifetime (Text.trimStart rest)
    | _ => s
  (dropWord? "mut" s).getD s == "self".toList

end DocScaffold.Item
