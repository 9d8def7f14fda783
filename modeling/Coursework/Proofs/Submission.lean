import Coursework.Proofs.Text.Decimal
import Coursework.Proofs.Text.Pieces
import Coursework.Submission

/-!
# Full ids

A full id puts course, assignment and user in front of a short id, with `::` between them.
Identifiers of courses and assignments have no colon in them and neither has a number, so that a
full id says what it was made of (`SubmissionId.full_injective`).  The email may have as many colons
as it likes: it is what is left between the second separator and the last one.

Whoever reads a full id looks for the separators from the left, and expects three of them.  An email
with `::` in it has more, and one with a colon at its end has the third in another place; all others
are read as they were written (`SubmissionId.short_full`, `SubmissionId.separable_of_short_full`).
-/

set_option autoImplicit false

namespace Coursework

theorem isIdChar_of_validateId {kind id : String} (h : validateId kind id = .ok ()) :
    ∀ c ∈ id.toList, isIdChar c = true := by
  rw [validateId] at h
  split at h
  · cases h
  · split at h
    · next hall => exact List.all_eq_true.1 hall
    · cases h

theorem validateId_of_validate {a : Assignment} (h : a.validate = .ok ()) :
    validateId "assignment" a.id = .ok () := by
  rw [Assignment.validate] at h
  rcases hcourse : validateId "course" a.courseId with e | _
  · rw [hcourse] at h
    cases h
  · rcases hid : validateId "assignment" a.id with e | _
    · rw [hcourse, hid] at h
      cases h
    · rfl

namespace SubmissionId

/-- A text without colons, such as an identifier or a number: the parts of a full id that are not an
email. -/
def Colonless (s : String) : Prop :=
  ':' ∉ s.toList

theorem colonless_of_validateId {kind id : String} (h : validateId kind id = .ok ()) :
    Colonless id := by
  intro hcolon
  cases isIdChar_of_validateId h ':' hcolon

/-- The first colon of a text divides it in one way only, and so does the last
(`eq_of_colon_append`). -/
theorem eq_of_append_colon {x y u v : List Char} (hx : ':' ∉ x) (hy : ':' ∉ y)
    (h : x ++ ':' :: u = y ++ ':' :: v) : x = y ∧ u = v := by
  induction x generalizing y with
  | nil =>
    cases y with
    | nil => exact ⟨rfl, (List.cons.inj h).2⟩
    | cons c y =>
      rw [(List.cons.inj h).1] at hy
      exact absurd List.mem_cons_self hy
  | cons c x ih =>
    cases y with
    | nil =>
      rw [(List.cons.inj h).1] at hx
      exact absurd List.mem_cons_self hx
    | cons b y =>
      obtain ⟨rfl, hrest⟩ := List.cons.inj h
      obtain ⟨rfl, rfl⟩ := ih (List.not_mem_of_not_mem_cons hx) (List.not_mem_of_not_mem_cons hy)
        hrest
      exact ⟨rfl, rfl⟩

theorem eq_of_colon_append {x y u v : List Char} (hu : ':' ∉ u) (hv : ':' ∉ v)
    (h : x ++ ':' :: u = y ++ ':' :: v) : x = y ∧ u = v := by
  have hreverse := congrArg List.reverse h
  simp only [List.reverse_append, List.reverse_cons, List.append_assoc, List.singleton_append]
    at hreverse
  obtain ⟨hback, hfront⟩ := eq_of_append_colon (by simpa using hu) (by simpa using hv) hreverse
  exact ⟨List.reverse_inj.1 hfront, List.reverse_inj.1 hback⟩

theorem toList_full (course assignment email short : String) :
    (full course assignment email short).toList =
      course.toList ++ ':' :: ':' :: (assignment.toList ++ ':' :: ':' ::
        (email.toList ++ ':' :: ':' :: short.toList)) := by
  simp [full, Text.join]

/-- A full id determines what it was made of, whatever the emails are, as long as the other parts
are `Colonless`. -/
theorem full_injective {c d a b e f s t : String} (hc : Colonless c) (hd : Colonless d)
    (ha : Colonless a) (hb : Colonless b) (hs : Colonless s) (ht : Colonless t)
    (h : full c a e s = full d b f t) : c = d ∧ a = b ∧ e = f ∧ s = t := by
  have hlist := congrArg String.toList h
  rw [toList_full, toList_full] at hlist
  obtain ⟨hcourse, hrest⟩ := eq_of_append_colon hc hd hlist
  obtain ⟨hassignment, hrest⟩ := eq_of_append_colon ha hb (List.cons.inj hrest).2
  -- from here on the separator is looked for from the end
  have htail : (e.toList ++ [':']) ++ ':' :: s.toList = (f.toList ++ [':']) ++ ':' :: t.toList := by
    simpa using (List.cons.inj hrest).2
  obtain ⟨hemail, hshort⟩ := eq_of_colon_append hs ht htail
  exact ⟨String.toList_inj.1 hcourse, String.toList_inj.1 hassignment,
    String.toList_inj.1 (List.append_cancel_right hemail), String.toList_inj.1 hshort⟩

/-! ## Reading an id -/

theorem trimmed_decimal (n : Int) : Text.Trimmed (Text.decimal n).toList := by
  refine Text.trimmed_of_forall fun c hc => ?_
  rcases Text.mem_decimal hc with hdigit | rfl
  · have hrange : 48 ≤ c.toNat ∧ c.toNat ≤ 57 := Char.isDigit_iff_toNat.1 hdigit
    exact Text.isBlank_of_printable (by omega)
  · rfl

theorem decimal_ne_empty (n : Int) : Text.decimal n ≠ "" := by
  intro hempty
  have hread := Text.integer?_decimal n
  rw [hempty] at hread
  cases hread

theorem pieces_decimal (n : Int) :
    Text.pieces (Text.decimal n).toList = [(Text.decimal n).toList] :=
  Text.pieces_of_not_infix fun hin => Text.colon_notMem_decimal n (hin.subset List.mem_cons_self)

theorem short_decimal (n : Int) (course assignment email : String) :
    short (Text.decimal n) course assignment email = .ok (Text.decimal n) := by
  simp only [short, Text.trim_of_trimmed (trimmed_decimal n), if_neg (decimal_ne_empty n),
    pieces_decimal, List.map_cons, List.map_nil]

theorem isBlank_of_isIdChar {c : Char} (h : isIdChar c = true) : Text.isBlank c = false := by
  simp only [isIdChar, Bool.or_eq_true, Bool.and_eq_true, decide_eq_true_eq, beq_iff_eq] at h
  rcases h with ((hrange | rfl) | rfl) | rfl
  · exact Text.isBlank_of_printable (by omega)
  all_goals rfl

theorem ne_empty_of_validateId {kind id : String} (h : validateId kind id = .ok ()) : id ≠ "" := by
  rintro rfl
  cases h

theorem trimmed_of_validateId {kind id : String} (h : validateId kind id = .ok ()) :
    Text.Trimmed id.toList :=
  Text.trimmed_of_forall fun c hc => isBlank_of_isIdChar (isIdChar_of_validateId h c hc)

theorem full_ne_empty (course assignment email short : String) :
    full course assignment email short ≠ "" := by
  intro hempty
  have hlist := congrArg String.toList hempty
  rw [toList_full] at hlist
  exact List.append_ne_nil_of_right_ne_nil _ (List.cons_ne_nil _ _) hlist

section Full

variable {course assignment kind kind' : String} (hcourse : validateId kind course = .ok ())
  (hassignment : validateId kind' assignment = .ok ())
include hcourse

/-- A full id begins as an identifier does and ends as a number does, so that `Text.trim` leaves it
alone. -/
theorem trim_full (assignment email : String) (n : Int) :
    Text.trim (full course assignment email (Text.decimal n)) =
      full course assignment email (Text.decimal n) := by
  have hends : (full course assignment email (Text.decimal n)).toList = course.toList ++
      (':' :: ':' :: (assignment.toList ++ ':' :: ':' :: (email.toList ++ [':', ':']))) ++
        (Text.decimal n).toList := by
    rw [toList_full]
    simp
  refine Text.trim_of_trimmed ?_
  rw [hends]
  exact (trimmed_of_validateId hcourse).append (trimmed_decimal n)
    (mt String.toList_eq_nil_iff.1 (ne_empty_of_validateId hcourse))
    (mt String.toList_eq_nil_iff.1 (decimal_ne_empty n)) _

include hassignment

theorem pieces_full (email short : String) :
    Text.pieces (full course assignment email short).toList =
      course.toList :: assignment.toList ::
        Text.pieces (email.toList ++ ':' :: ':' :: short.toList) := by
  rw [toList_full, Text.pieces_append (Text.separable_of_notMem (colonless_of_validateId hcourse)),
    Text.pieces_append (Text.separable_of_notMem (colonless_of_validateId hassignment))]

/-- The full id of a submission of somebody with a `Separable` email is read as it was written, and
no other full id is (`separable_of_short_full`). -/
theorem short_full {email : String} (hemail : Text.Separable email.toList) (n : Int) :
    short (full course assignment email (Text.decimal n)) course assignment email =
      .ok (Text.decimal n) := by
  have hpieces : (Text.pieces (full course assignment email (Text.decimal n)).toList).map
      String.ofList = [course, assignment, email, Text.decimal n] := by
    rw [pieces_full hcourse hassignment, Text.pieces_append hemail, pieces_decimal]
    simp
  simp only [short, trim_full hcourse, if_neg (full_ne_empty _ _ _ _), hpieces,
    if_neg (decimal_ne_empty n), and_self, if_true]

theorem separable_of_short_full {email s : String} {n : Int}
    (h : short (full course assignment email (Text.decimal n)) course assignment email = .ok s) :
    Text.Separable email.toList := by
  simp only [short, trim_full hcourse, if_neg (full_ne_empty _ _ _ _),
    pieces_full hcourse hassignment, List.map_cons] at h
  rcases hpieces : Text.pieces (email.toList ++ ':' :: ':' :: (Text.decimal n).toList) with
    _ | ⟨x, _ | ⟨y, _ | ⟨z, ps⟩⟩⟩
  · exact absurd hpieces (Text.pieces_ne_nil _)
  · rw [hpieces] at h
    cases h
  · -- four pieces in all, of which the third has to be the email
    obtain ⟨hseparable, -⟩ := Text.exists_of_pieces_eq hpieces
    rw [hpieces] at h
    simp only [List.map_cons, List.map_nil] at h
    split at h
    · cases h
    · split at h
      · next hnames =>
        rwa [← hnames.2.2, String.toList_ofList]
      · cases h
  · rw [hpieces] at h
    cases h

end Full

end SubmissionId
end Coursework
