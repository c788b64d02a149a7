import Collage.Proofs.Scene.Renaming
import Mathlib.Data.List.Forall2
import Mathlib.Data.Option.Basic

/-!
# Functions of a renamed layer

What a source defines is found among its tokens, and those of the renamed code are the same
but for the names.  So `mem_definedFunctions_renamed`: where the source defines a function
that is one of the names, the renamed code defines it under its new name.
-/

namespace Collage
namespace Token

open Mangle

variable {names : List String} {suffix : String}

/-- One token is what another becomes. -/
def Becomes (names : List String) (suffix : String) (token other : Token) : Prop :=
  other.lexeme = token.renamed names suffix

theorem forall₂_becomes {tokens others : List Token}
    (h : others.map lexeme = tokens.map (renamed names suffix)) :
    List.Forall₂ (Becomes names suffix) tokens others := by
  have same : List.Forall₂ (· = ·) (tokens.map (renamed names suffix)) (others.map lexeme) := by
    rw [h, List.forall₂_eq_eq_eq]
  rw [List.forall₂_map_left_iff, List.forall₂_map_right_iff] at same
  exact same.imp fun _ _ becomes => becomes.symm

theorem Becomes.kind {token other : Token} (h : Becomes names suffix token other) :
    other.kind = token.kind := by
  have same := congrArg Lexeme.kind h
  unfold renamed at same
  split at same
  · next named =>
    have identifier : token.kind = .identifier := by simpa [isIdentifier] using named.1
    rw [identifier]
    exact same
  · exact same

theorem Becomes.isIdentifier {token other : Token} (h : Becomes names suffix token other) :
    other.isIdentifier = token.isIdentifier := by
  unfold Token.isIdentifier
  rw [h.kind]

theorem Becomes.isMark {token other : Token} (h : Becomes names suffix token other) (c : Char) :
    other.isMark c = token.isMark c := by
  unfold Token.isMark
  rw [h.kind]
  by_cases mark : token.kind = .mark
  · have text := congrArg Lexeme.text h
    unfold renamed at text
    rw [if_neg (by simp [Token.isIdentifier, mark])] at text
    rw [show other.text = token.text from text]
  · simp [mark]

/-- The new name of an identifier. -/
def newName (names : List String) (suffix : String) (word : String) : String :=
  if word ∈ names then mangled word suffix else word

theorem Becomes.word {token other : Token} (h : Becomes names suffix token other)
    (identifier : token.isIdentifier = true) : other.word = newName names suffix token.word := by
  have text := congrArg Lexeme.text h
  unfold renamed at text
  unfold newName
  rw [← String.toList_inj, toList_word]
  split
  · next named => rwa [if_pos ⟨identifier, named⟩] at text
  · next other =>
    rw [if_neg fun both => other both.2] at text
    rwa [toList_word]

theorem rel_map {α β : Type} {agrees : β → β → Prop} {found found' : Option (α × β)}
    (h : Option.Rel (fun found found' => agrees found.2 found'.2) found found')
    (first first' : α × β → α) :
    Option.Rel (fun found found' => agrees found.2 found'.2)
      (found.map fun found => (first found, found.2))
      (found'.map fun found => (first' found, found.2)) := by
  cases h with
  | none => exact .none
  | some same => exact .some same

/-- What closes a parenthesis becomes what closes it, and what follows what follows. -/
def EndBecomes (names : List String) (suffix : String) (found found' : Token × List Token) : Prop :=
  Becomes names suffix found.1 found'.1 ∧ List.Forall₂ (Becomes names suffix) found.2 found'.2

/-- A parenthesis closes where it did. -/
theorem closeParenthesis_becomes {tokens others : List Token}
    (h : List.Forall₂ (Becomes names suffix) tokens others) (depth : Nat) :
    Option.Rel (fun found found' => EndBecomes names suffix found.2 found'.2)
      (closeParenthesis depth tokens) (closeParenthesis depth others) := by
  induction h generalizing depth with
  | nil => exact .none
  | @cons token other rest rest' becomes more ih =>
    have goesOn := fun depth => rel_map (ih depth) (token :: ·.1) (other :: ·.1)
    unfold closeParenthesis
    dsimp only
    rw [becomes.isMark, becomes.isMark]
    split
    · exact goesOn _
    · split
      · cases depth with
        | zero => exact .some ⟨becomes, more⟩
        | succ depth => exact goesOn _
      · exact goesOn _

/-- A function that is found adds its new name, unless that is known. -/
theorem mem_seen_becomes {token other : Token} (becomes : Becomes names suffix token other)
    (identifier : token.isIdentifier = true) (opens : Bool) {seen seen' : List String}
    (known : ∀ word ∈ seen, newName names suffix word ∈ seen') :
    ∀ word ∈ if opens && !seen.contains token.word then seen ++ [token.word] else seen,
      newName names suffix word ∈
        if opens && !seen'.contains other.word then seen' ++ [other.word] else seen' := by
  intro word inside
  have found : word ∈ seen ∨ opens = true ∧ word = token.word := by
    split at inside
    · next both =>
      rcases List.mem_append.mp inside with old | new
      · exact .inl old
      · exact .inr ⟨(Bool.and_eq_true _ _ ▸ both).1, List.mem_singleton.mp new⟩
    · exact .inl inside
  rcases found with old | ⟨rfl, rfl⟩
  · split
    · exact List.mem_append_left _ (known word old)
    · exact known word old
  · rw [← becomes.word identifier]
    by_cases there : other.word ∈ seen'
    · simp [there]
    · simp [there]

theorem any_isMark_becomes {tokens others : List Token}
    (h : List.Forall₂ (Becomes names suffix) tokens others) (c : Char) :
    others.head?.any (·.isMark c) = tokens.head?.any (·.isMark c) := by
  cases h with
  | nil => rfl
  | cons becomes _ => exact becomes.isMark c

theorem any_isIdentifier_becomes {previous previous' : Option Token}
    (h : Option.Rel (Becomes names suffix) previous previous') :
    previous'.any Token.isIdentifier = previous.any Token.isIdentifier := by
  cases h with
  | none => rfl
  | some becomes => exact becomes.isIdentifier

/-- Among the renamed tokens all functions are found under their new names. -/
theorem mem_functionsIn_becomes {tokens others : List Token}
    (h : List.Forall₂ (Becomes names suffix) tokens others) (steps depth : Nat)
    {previous previous' : Option Token}
    (before : Option.Rel (Becomes names suffix) previous previous') {seen seen' : List String}
    (known : ∀ word ∈ seen, newName names suffix word ∈ seen') :
    ∀ word ∈ functionsIn steps depth previous seen tokens,
      newName names suffix word ∈ functionsIn steps depth previous' seen' others := by
  induction steps generalizing tokens others depth previous previous' seen seen' with
  | zero =>
    unfold functionsIn
    exact known
  | succ steps ih =>
    cases h with
    | nil =>
      unfold functionsIn
      exact known
    | @cons token other rest rest' becomes more =>
      unfold functionsIn
      rw [becomes.isMark, becomes.isMark]
      split
      · exact ih more _ (.some becomes) known
      · split
        · exact ih more _ (.some becomes) known
        · rw [becomes.isIdentifier, any_isIdentifier_becomes before]
          cases more with
          | nil => exact ih .nil _ (.some becomes) known
          | @cons opening opening' inner inner' opens within =>
            dsimp only
            rw [opens.isMark]
            split
            · next call =>
              have identifier : token.isIdentifier = true := by
                simp only [Bool.and_eq_true] at call
                exact call.1.1.2
              have closes := closeParenthesis_becomes within 0
              revert closes
              cases closeParenthesis 0 inner with
              | none =>
                cases closeParenthesis 0 inner' with
                | none => exact fun _ => ih (.cons opens within) _ (.some becomes) known
                | some _ => rintro ⟨⟩
              | some found =>
                cases closeParenthesis 0 inner' with
                | none => rintro ⟨⟩
                | some found' =>
                  rintro (⟨close, after⟩ | _)
                  dsimp only
                  rw [any_isMark_becomes after]
                  exact ih after _ (.some close) (mem_seen_becomes becomes identifier _ known)
            · exact ih (.cons opens within) _ (.some becomes) known

end Token

namespace Mangle

/-- **Renamed code defines the functions of its source under their new names.** -/
theorem mem_definedFunctions_renamedCode {source : String} {previous : List ShaderValue}
    (apart : NumbersApart (layerNames source previous) source.toList) (node : Nat)
    (layerId : String) {function : String} (defined : function ∈ definedFunctions source.toList) :
    mangled function (suffix node layerId) ∈
      definedFunctions (renamedCode source previous (suffix node layerId)).toList := by
  have becomes := Token.forall₂_becomes (tokens_renamedCode source previous node layerId apart)
  have nothing : ∀ word ∈ ([] : List String),
      Token.newName (layerNames source previous) (suffix node layerId) word ∈ ([] : List String) :=
    fun _ inside => nomatch inside
  have found := Token.mem_functionsIn_becomes becomes ((Token.ofSource source.toList).length + 1) 0
    .none nothing function defined
  have named : function ∈ layerNames source previous :=
    List.mem_append_right _ (List.mem_append_left _ defined)
  rw [Token.newName, if_pos named, becomes.length_eq] at found
  exact found

end Mangle
end Collage
