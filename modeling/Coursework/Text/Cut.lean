import Coursework.Text

/-!
# Cutting octets at a pattern

`cut?` finds the first place where a pattern stands and gives what is before it and what is behind.
What is behind is shorter by at least the pattern, so that a reader that goes on there comes to an
end.
-/

set_option autoImplicit false

namespace Coursework
namespace Text

def cutFrom? (pattern passed : List UInt8) : List UInt8 → Option (List UInt8 × List UInt8)
  | [] => if pattern.isEmpty then some (passed.reverse, []) else none
  | b :: rest =>
    if pattern.isPrefixOf (b :: rest) then
      some (passed.reverse, (b :: rest).drop pattern.length)
    else cutFrom? pattern (b :: passed) rest

/-- What stands before the first occurrence of `pattern`, and what stands behind it; none if it does
not occur. -/
def cut? (pattern octets : List UInt8) : Option (List UInt8 × List UInt8) :=
  cutFrom? pattern [] octets

theorem length_of_cutFrom? {pattern passed octets before behind : List UInt8}
    (h : cutFrom? pattern passed octets = some (before, behind)) :
    behind.length + pattern.length ≤ octets.length := by
  induction octets generalizing passed with
  | nil =>
    simp only [cutFrom?] at h
    split at h
    · rename_i hp
      simp only [Option.some.injEq, Prod.mk.injEq] at h
      simp [← h.2, List.isEmpty_iff.1 hp]
    · cases h
  | cons b rest ih =>
    simp only [cutFrom?] at h
    split at h
    · rename_i hp
      have hle := (List.isPrefixOf_iff_prefix.1 hp).length_le
      simp only [Option.some.injEq, Prod.mk.injEq] at h
      rw [← h.2, List.length_drop]
      omega
    · exact Nat.le_succ_of_le (ih h)

theorem length_of_cut? {pattern octets before behind : List UInt8}
    (h : cut? pattern octets = some (before, behind)) :
    behind.length + pattern.length ≤ octets.length :=
  length_of_cutFrom? h

end Text
end Coursework
