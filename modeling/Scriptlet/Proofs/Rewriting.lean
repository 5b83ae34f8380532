import Scriptlet.Text

/-!
# Rewriting from left to right

Much of what is done to a text goes by one scheme: signs stand in it here and there, each is
replaced by something, and nothing else is touched. The occurrences of a text that is searched for
are such signs, and so are the references in a template and the spellings that one notation has and
another has not. Whether something that looks like a sign is one can depend on what is around it.

Where signs would overlap, the one that comes first counts, for a text is gone through from left to
right and goes on behind a sign that has been replaced. This makes of rewriting a relation that
knows nothing of searches, counters or positions, and the functions that rewrite with the help of
such things are shown to follow it.
-/

namespace Scriptlet

/-- What is **rewritten** in texts. -/
structure Rewriting (σ : Type) where
  /-- How a sign is spelled. -/
  spelling : σ → Text
  /-- What it is replaced by. -/
  replacement : σ → Text
  /-- Whether it stands between the text before it and the text after it. -/
  Stands : σ → Text → Text → Prop

namespace Rewriting

variable {σ : Type}

/-- What a text **is rewritten to** behind the text before it: a sign that stands in front is
replaced, and where none does the first code point is kept. -/
inductive RewritesFrom (ρ : Rewriting σ) : Text → Text → Text → Prop
  | nil (before : Text) : RewritesFrom ρ before [] []
  | sign {before after result : Text} (x : σ) (stands : ρ.Stands x before after)
      (rest : RewritesFrom ρ (before ++ ρ.spelling x) after result) :
      RewritesFrom ρ before (ρ.spelling x ++ after) (ρ.replacement x ++ result)
  | keep {before rest result : Text} {c : CodePoint}
      (none : ∀ x after, ρ.spelling x ++ after = c :: rest → ¬ ρ.Stands x before after)
      (more : RewritesFrom ρ (before ++ [c]) rest result) :
      RewritesFrom ρ before (c :: rest) (c :: result)

/-- What a whole text **is rewritten to**. -/
def Rewrites (ρ : Rewriting σ) (t result : Text) : Prop :=
  ρ.RewritesFrom [] t result

variable {ρ : Rewriting σ}

/-- **Every text is rewritten to something**, unless signs are spelled with nothing at all. -/
theorem exists_rewritesFrom (spelled : ∀ x, ρ.spelling x ≠ []) (before t : Text) :
    ∃ result, ρ.RewritesFrom before t result := by
  induction n : t.length using Nat.strongRecOn generalizing before t with
  | ind n ih =>
    subst n
    match t with
    | [] => exact ⟨[], .nil before⟩
    | c :: rest =>
      by_cases some : ∃ x after, ρ.spelling x ++ after = c :: rest ∧ ρ.Stands x before after
      · obtain ⟨x, after, same, stands⟩ := some
        have shorter : after.length < (c :: rest).length := by
          have length := List.length_pos_iff.mpr (spelled x)
          rw [← same, List.length_append]
          omega
        obtain ⟨result, more⟩ := ih _ shorter (before ++ ρ.spelling x) after rfl
        rw [← same]
        exact ⟨_, .sign x stands more⟩
      · obtain ⟨result, more⟩ := ih _ (Nat.lt_succ_self rest.length) (before ++ [c]) rest rfl
        exact ⟨_, .keep (fun x after same stands => some ⟨x, after, same, stands⟩) more⟩

end Rewriting

end Scriptlet
