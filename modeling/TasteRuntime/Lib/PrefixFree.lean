import Mathlib.InformationTheory.Coding.UniquelyDecodable

/-!
# TasteRuntime.Lib.PrefixFree

Words none of which is a proper beginning of another.  Strung together they
can be told apart again (`PrefixFree.uniquelyDecodable`).
-/

open InformationTheory

/-- No word of the set is a proper beginning of another. -/
def PrefixFree (words : Set (List α)) : Prop :=
  ∀ a ∈ words, ∀ b ∈ words, a <+: b → a = b

namespace PrefixFree

variable {words : Set (List α)}

/-- Words at the beginning of one list are the same. -/
theorem eq_of_append_eq (h : PrefixFree words) (ha : a ∈ words) (hb : b ∈ words)
    (heq : a ++ rest = b ++ rest') : a = b ∧ rest = rest' := by
  have hab : a = b := by
    obtain hle | hle := List.prefix_or_prefix_of_prefix (List.prefix_append a rest)
      (heq ▸ List.prefix_append b rest')
    · exact h a ha b hb hle
    · exact (h b hb a ha hle).symm
  subst hab
  exact ⟨rfl, List.append_cancel_left heq⟩

/-- **Decoding**: a list is the concatenation of words of the set in at most
one way. -/
theorem uniquelyDecodable (h : PrefixFree words) (hne : [] ∉ words) :
    UniquelyDecodable words := by
  intro as
  induction as with
  | nil =>
      intro bs _ hbs heq
      cases bs with
      | nil => rfl
      | cons b bs =>
          have hb : b = [] := by
            rw [List.flatten_nil, List.flatten_cons, eq_comm, List.append_eq_nil_iff] at heq
            exact heq.1
          exact absurd (hb ▸ hbs b List.mem_cons_self) hne
  | cons a as ih =>
      intro bs has hbs heq
      have ha : a ∈ words := has a List.mem_cons_self
      cases bs with
      | nil =>
          have hnil : a = [] := by
            rw [List.flatten_nil, List.flatten_cons, List.append_eq_nil_iff] at heq
            exact heq.1
          exact absurd (hnil ▸ ha) hne
      | cons b bs =>
          rw [List.flatten_cons, List.flatten_cons] at heq
          obtain ⟨rfl, hrest⟩ := h.eq_of_append_eq ha (hbs b List.mem_cons_self) heq
          rw [ih bs (fun w hw => has w (List.mem_cons_of_mem _ hw))
            (fun w hw => hbs w (List.mem_cons_of_mem _ hw)) hrest]

end PrefixFree
