import SnowflakeConnector.RegExp

/-!
# SnowflakeConnector.Util

`escapeRegex` of `lib/util.ts`, on texts of code units.
-/

namespace SnowflakeConnector

namespace Util

open JsString RegExp

/-- `/[.*+?^${}()|[\]\\]/`. -/
def escaped : List UInt16 := text ".*+?^$\x7b\x7d()|[]\\"

def escapeRegex (str : List UInt16) : List UInt16 :=
  str.flatMap fun c => if c ∈ escaped then [unit '\\', c] else [c]

theorem mem_escaped {c : UInt16} : c ∈ escaped ↔ c ∈ syntaxCharacters := by
  have hperm : escaped.Perm syntaxCharacters := by decide
  exact hperm.mem_iff

/-- A character that is escaped stands for itself. -/
theorem spells_escapeRegex (c : UInt16) : Spells (.one (· == c)) (escapeRegex [c]) := by
  by_cases hc : c ∈ syntaxCharacters
  · have hescape : escapeRegex [c] = [unit '\\', c] := by simp [escapeRegex, mem_escaped, hc]
    rw [hescape]
    refine (Spells.of_atom (fun rest => ?_) fun rest => ?_).1
    · simp [unit]
    · exact atom_escape hc rest
  · have hescape : escapeRegex [c] = [c] := by simp [escapeRegex, mem_escaped, hc]
    rw [hescape]
    refine (Spells.of_atom (fun rest => ?_) fun rest => ?_).1
    · have hstar : c ≠ unit '*' := fun h => hc (h ▸ by decide)
      simpa using hstar
    · exact atom_of_notMem hc rest

end Util

end SnowflakeConnector
