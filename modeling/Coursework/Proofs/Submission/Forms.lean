import Coursework.Proofs.Submission

/-!
# The two forms of an id

Whoever asks for a submission writes a short id or a full one, with blanks around it or not.  A text
without separators is a short id, whatever it is.  A text with separators is an id only if it comes
apart into four pieces, of which the first three are the course, the assignment and the user that
are asked about and the fourth is not empty (`SubmissionId.Names`).

Nothing is lost in between: the four pieces make up the full id again (`SubmissionId.names_iff`), so
that the full id of a submission to something else or by somebody else is refused.  Names are what
is found between the separators from the left: in `a::b::c:::d` the user is `c`, and not `c:`.
-/

set_option autoImplicit false

namespace Coursework
namespace SubmissionId

/-- A text comes apart into the names of a course, an assignment and a user, and one more piece
(`Text.Splits`). -/
def Names (t course assignment email s : String) : Prop :=
  Text.Splits t.toList [course.toList, assignment.toList, email.toList, s.toList]

/-- A text `Names` them if it is their `full` id, and each name is found in it from the left
(`Text.Separable`). -/
theorem names_iff (t course assignment email s : String) :
    Names t course assignment email s ↔
      (Text.Separable course.toList ∧ Text.Separable assignment.toList ∧
        Text.Separable email.toList ∧ ¬ [':', ':'] <:+: s.toList) ∧
      full course assignment email s = t := by
  simp only [Names, Text.splits_cons_iff, Text.splits_singleton_iff]
  constructor
  · rintro ⟨hcourse, rest, ht, hassignment, rest', rfl, hemail, rest'', rfl, rfl, hs⟩
    refine ⟨⟨hcourse, hassignment, hemail, hs⟩, String.toList_inj.1 ?_⟩
    rw [toList_full, ht]
  · rintro ⟨⟨hcourse, hassignment, hemail, hs⟩, rfl⟩
    exact ⟨hcourse, _, toList_full .., hassignment, _, rfl, hemail, _, rfl, rfl, hs⟩

section Reading

variable {id course assignment email s : String}

theorem short_of_plain (hid : Text.trim id ≠ "") (h : ¬ [':', ':'] <:+: (Text.trim id).toList) :
    short id course assignment email = .ok (Text.trim id) := by
  simp only [short, if_neg hid, Text.pieces_of_not_infix h, List.map_cons, List.map_nil]

theorem short_of_names (hs : s ≠ "") (h : Names (Text.trim id) course assignment email s) :
    short id course assignment email = .ok s := by
  have hpieces := (Text.pieces_eq_iff _ _).2 h
  have hid : Text.trim id ≠ "" := by
    rw [← ((names_iff ..).1 h).2]
    exact full_ne_empty _ _ _ _
  simp only [short, if_neg hid, hpieces, List.map_cons, List.map_nil, String.ofList_toList,
    if_neg hs, and_self, if_true]

/-- What is read stands for itself or has three names in front of it; there is no third form. -/
theorem short_eq_ok (h : short id course assignment email = .ok s) :
    Text.trim id ≠ "" ∧ (¬ [':', ':'] <:+: (Text.trim id).toList ∧ s = Text.trim id ∨
      Names (Text.trim id) course assignment email s ∧ s ≠ "") := by
  simp only [short] at h
  split at h
  · cases h
  next hid =>
  refine ⟨hid, ?_⟩
  split at h
  · next p hp =>
    obtain ⟨q, hq, -⟩ := List.map_eq_singleton_iff.1 hp
    exact .inl ⟨(Text.not_infix_of_pieces_eq hq).2, (Except.ok.inj h).symm⟩
  · next c a u r hp =>
    split at h
    · cases h
    next hr =>
    split at h
    · next hnames =>
      obtain ⟨rfl, rfl, rfl⟩ := hnames
      obtain rfl := Except.ok.inj h
      refine .inr ⟨(Text.pieces_eq_iff _ _).1 ?_, hr⟩
      have hback := congrArg (List.map String.toList) hp
      simpa only [List.map_map, Function.comp_def, String.toList_ofList, List.map_id',
        List.map_cons, List.map_nil] using hback
    · cases h
  · cases h

/-- What names another course, assignment or user in front is not read, whatever is behind it. -/
theorem names_eq_of_short {c a e : String} {rest : List (List Char)}
    (hsplits : Text.Splits (Text.trim id).toList (c.toList :: a.toList :: e.toList :: rest))
    (h : short id course assignment email = .ok s) : c = course ∧ a = assignment ∧ e = email := by
  have hpieces := (Text.pieces_eq_iff _ _).2 hsplits
  obtain ⟨-, ⟨hplain, -⟩ | ⟨hnames, -⟩⟩ := short_eq_ok h
  · rw [Text.pieces_of_not_infix hplain] at hpieces
    exact absurd (List.cons.inj hpieces).2 (List.cons_ne_nil _ _).symm
  · rw [(Text.pieces_eq_iff _ _).2 hnames] at hpieces
    simp only [List.cons.injEq, String.toList_inj] at hpieces
    exact ⟨hpieces.1.symm, hpieces.2.1.symm, hpieces.2.2.1.symm⟩

end Reading

/-- **An id is read exactly if it has one of the two forms.**  Blanks around it do not count.  It is
not empty, and either has no separator in it and stands for itself, or comes apart (`Text.Splits`)
into the course, the assignment and the user that are asked about and a short id that is not empty.
What is read has no separator in it, and the pieces of a full id make it up again.  So a text whose
first three pieces name another course, assignment or user is never read, whatever pieces there are
behind them. -/
theorem short_eq_ok_iff (id course assignment email : String) :
    (∀ s, short id course assignment email = .ok s ↔ Text.trim id ≠ "" ∧
      (¬ [':', ':'] <:+: (Text.trim id).toList ∧ s = Text.trim id ∨
        Text.Splits (Text.trim id).toList
          [course.toList, assignment.toList, email.toList, s.toList] ∧ s ≠ "")) ∧
    (∀ s, short id course assignment email = .ok s → ¬ [':', ':'] <:+: s.toList) ∧
    (∀ s, Text.Splits (Text.trim id).toList
        [course.toList, assignment.toList, email.toList, s.toList] →
      full course assignment email s = Text.trim id) ∧
    ∀ (c a e : String) (rest : List (List Char)),
      Text.Splits (Text.trim id).toList (c.toList :: a.toList :: e.toList :: rest) →
      (c, a, e) ≠ (course, assignment, email) →
      ∃ fault, short id course assignment email = .error fault := by
  refine ⟨fun s => ⟨short_eq_ok, ?_⟩, fun s h => ?_, fun s h => ((names_iff ..).1 h).2, ?_⟩
  · rintro ⟨hid, ⟨hplain, rfl⟩ | ⟨hnames, hs⟩⟩
    · exact short_of_plain hid hplain
    · exact short_of_names hs hnames
  · obtain ⟨-, ⟨hplain, rfl⟩ | ⟨hnames, -⟩⟩ := short_eq_ok h
    · exact hplain
    · exact ((names_iff ..).1 hnames).1.2.2.2
  · intro c a e rest hsplits hother
    rcases h : short id course assignment email with fault | s
    · exact ⟨fault, rfl⟩
    · obtain ⟨rfl, rfl, rfl⟩ := names_eq_of_short hsplits h
      exact absurd rfl hother

/-- Of three colons the first two are the separator, and the third belongs to the short id. -/
theorem short_eq_ok_iff_colons :
    short " cs1::hw1::kim:::7 " "cs1" "hw1" "kim" = .ok ":7" ∧
      full "cs1" "hw1" "kim" ":7" = Text.trim " cs1::hw1::kim:::7 " ∧
      ∃ fault, short " cs1::hw1::kim:::7 " "cs1" "hw1" "pat" = .error fault := by
  have hsplits : Text.Splits (Text.trim " cs1::hw1::kim:::7 ").toList
      ["cs1".toList, "hw1".toList, "kim".toList, ":7".toList] := (Text.pieces_eq_iff _ _).1 rfl
  obtain ⟨hread, -, hfull, -⟩ := short_eq_ok_iff " cs1::hw1::kim:::7 " "cs1" "hw1" "kim"
  obtain ⟨-, -, -, hforeign⟩ := short_eq_ok_iff " cs1::hw1::kim:::7 " "cs1" "hw1" "pat"
  exact ⟨(hread ":7").2 ⟨by decide, .inr ⟨hsplits, by decide⟩⟩, hfull ":7" hsplits,
    hforeign "cs1" "hw1" "kim" [":7".toList] hsplits (by decide)⟩

/-- A colon at the end of a user can as well be one in front of a short id, for `full` makes one
text of both. -/
theorem full_push_colon (course assignment email s : String) :
    full course assignment (email ++ ":") s = full course assignment email (":" ++ s) := by
  rw [← String.toList_inj, toList_full, toList_full]
  simp

/-- **A text can be the full id of two submissions.**  What `full` makes for the user `kim:` is read
for the user `kim`, since names are what is found from the left; it names nobody else
(`short_eq_ok_iff`). -/
theorem short_full_push_colon {course assignment email s : String}
    (hcourse : Text.Separable course.toList) (hassignment : Text.Separable assignment.toList)
    (hemail : Text.Separable email.toList) (hs : ¬ [':', ':'] <:+: (":" ++ s).toList)
    (htrimmed : Text.Trimmed (full course assignment (email ++ ":") s).toList) :
    short (full course assignment (email ++ ":") s) course assignment email = .ok (":" ++ s) := by
  refine short_of_names ?_ ((names_iff ..).2 ⟨⟨hcourse, hassignment, hemail, hs⟩, ?_⟩)
  · simp
  · rw [Text.trim_of_trimmed htrimmed, full_push_colon]

end SubmissionId
end Coursework
