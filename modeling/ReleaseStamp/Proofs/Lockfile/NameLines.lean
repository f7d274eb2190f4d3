import ReleaseStamp.Proofs.Lockfile.Records

/-!
Fields that begin a line, and fields behind other text on their line. The search
does not tell them apart: whatever stands in front of a name field is passed over
(`stamp_append`), so that a line with another key that ends in the name key is
stamped (`stamp_takes_other_key`). The selected field begins a line exactly where
a field that does comes before all those that do not (`selected_begins_line_iff`).
-/
namespace ReleaseStamp.Lockfile

/-- What follows the text begins a line. -/
def BeginsLine (before : List Char) : Prop := before = [] ∨ before.getLast? = some '\n'

instance (before : List Char) : Decidable (BeginsLine before) := inferInstanceAs (Decidable (_ ∨ _))

/-- A field whose name field begins a line of the text. -/
def NameLine (name text : List Char) (field : VersionField) : Prop := FieldOf name text field ∧ BeginsLine field.before

/-- A field whose name field stands behind something on its line. -/
def Inline (name text : List Char) (field : VersionField) : Prop := FieldOf name text field ∧ ¬ BeginsLine field.before

theorem Leftmost.beginsLine_iff {name text : List Char} {field : VersionField} (left : Leftmost name text field) :
    BeginsLine field.before ↔ ∀ other, Inline name text other →
      ∃ first, NameLine name text first ∧ first.before.length < other.before.length := by
  constructor
  · intro begins other inline
    refine ⟨field, ⟨left.fieldOf, begins⟩, ?_⟩
    have least := left.least other inline.1
    -- Two fields at one place are one field, and that would be on both sides.
    have apart : field.before.length ≠ other.before.length := by
      intro same
      rw [left.fieldOf.eq_of_length inline.1 same] at begins
      exact inline.2 begins
    omega
  · intro behind
    by_contra inline
    obtain ⟨first, line, earlier⟩ := behind field ⟨left.fieldOf, inline⟩
    have least := left.least first line.1
    omega

/-! ## Text in front of a name field -/

theorem clear_nameField {lead : List Char} (absent : ¬ nameKey <:+: lead) (package rest : List Char) :
    Clear (nameField package) lead (nameField package ++ rest) := by
  apply clear_of_not_infix absent
  rintro c ⟨⟩
  decide

theorem stamp_append {package : String} (compiles : searchable package = true) {lead text : String}
    (clear : Clear (nameField package.toList) lead.toList text.toList) (tag : String) :
    stamp (lead ++ text) package tag =
      (stamp text package tag).map fun stamped => { stamped with text := lead ++ stamped.text } := by
  rw [stamp_eq compiles, stamp_eq compiles, String.toList_append, restamp_append clear, held_append clear]
  simp [Except.map]

theorem version?_append {package : String} (compiles : searchable package = true) {lead text : String}
    (clear : Clear (nameField package.toList) lead.toList text.toList) :
    version? (lead ++ text) package = version? text package := by
  rw [version?_eq compiles, version?_eq compiles, String.toList_append, held_append clear]

/-! ## The selected field -/

/-- The field that is stamped and read begins a line if and only if each field
    that does not comes behind one that does. What stands in front of a name
    field makes no difference, if it holds no name key itself: the field is
    stamped and read as if it began its line. -/
theorem selected_begins_line_iff {package : String} (compiles : searchable package = true) (text tag : String) :
    (∀ field, Leftmost (nameField package.toList) text.toList field →
      stamp text package tag = .ok ⟨String.ofList (field.opening (nameField package.toList) ++
        (tag.toList ++ '"' :: field.after)), some (String.ofList field.value)⟩ ∧
      version? text package = .ok (some (String.ofList field.value)) ∧
      (BeginsLine field.before ↔ ∀ other, Inline (nameField package.toList) text.toList other →
        ∃ first, NameLine (nameField package.toList) text.toList first ∧
          first.before.length < other.before.length)) ∧
    (nameField package.toList <+: text.toList → ∀ lead : String, ¬ nameKey <:+: lead.toList →
      stamp (lead ++ text) package tag =
        (stamp text package tag).map (fun stamped => { stamped with text := lead ++ stamped.text }) ∧
      version? (lead ++ text) package = version? text package) := by
  constructor
  · intro field left
    refine ⟨?_, ?_, left.beginsLine_iff⟩
    · rw [stamp_eq compiles, restamp_of_leftmost left, held_of_leftmost left]
      rfl
    · rw [version?_eq compiles, held_of_leftmost left]
      rfl
  · rintro ⟨rest, opens⟩ lead absent
    have clear : Clear (nameField package.toList) lead.toList text.toList := by
      rw [← opens]
      exact clear_nameField absent package.toList rest
    exact ⟨stamp_append compiles clear tag, version?_append compiles clear⟩

/-- A comment that holds the name field, and the name line behind it. -/
theorem selected_begins_line_iff_comment :
    searchable "p" = true ∧ nameField "p".toList <+: "name = \"p\"\nversion = \"1\"\nname = \"p\"\nversion = \"2\"\n".toList ∧
      ¬ nameKey <:+: "# ".toList ∧
      version? ("# " ++ "name = \"p\"\nversion = \"1\"\nname = \"p\"\nversion = \"2\"\n") "p" =
        version? "name = \"p\"\nversion = \"1\"\nname = \"p\"\nversion = \"2\"\n" "p" := by
  have compiles : searchable "p" = true := by decide
  have opens : nameField "p".toList <+:
      "name = \"p\"\nversion = \"1\"\nname = \"p\"\nversion = \"2\"\n".toList := by decide
  have absent : ¬ nameKey <:+: "# ".toList := by decide
  exact ⟨compiles, opens, absent, ((selected_begins_line_iff compiles _ "3").2 opens "# " absent).2⟩

/-- The line of another key that ends in the name key is stamped and read. -/
theorem stamp_takes_other_key :
    Plain "p".toList ∧ searchable "p" = true ∧
      stamp "rename = \"p\"\nversion = \"1\"\n" "p" "2" = .ok ⟨"rename = \"p\"\nversion = \"2\"\n", some "1"⟩ ∧
      version? "rename = \"p\"\nversion = \"1\"\n" "p" = .ok (some "1") ∧
      ∃ field, Leftmost (nameField "p".toList) "rename = \"p\"\nversion = \"1\"\n".toList field ∧
        ¬ BeginsLine field.before := by
  refine ⟨by decide, by decide, by decide, by decide, ⟨"re".toList, ['\n'], ['1'], ['\n']⟩, ?_, by decide⟩
  exact search_eq_some_iff.mp (by decide)

end ReleaseStamp.Lockfile
