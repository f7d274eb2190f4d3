import ReleaseStamp.Git.IndexFormat
import ReleaseStamp.Proofs.Files.Lookups

/-!
An index that is written and read again is the same index, where each entry that
was new is known by the name of its object (`content_ofIndex`). Reading is told
by what a reader takes from the front of the bytes (`Reads`), part by part.
-/
namespace ReleaseStamp.Git

/-! ## Numbers as bytes -/

theorem length_bytesOf (count n : Nat) : (bytesOf count n).length = count := by
  induction count generalizing n with
  | zero => rfl
  | succ count ih => simp [bytesOf, ih]

theorem numberOf_concat (bytes : List UInt8) (b : UInt8) : numberOf (bytes ++ [b]) = numberOf bytes * 256 + b.toNat := by
  simp [numberOf]

/-- The numbers below this one fit in so many bytes. -/
def room : Nat → Nat
  | 0 => 1
  | count + 1 => 256 * room count

theorem numberOf_bytesOf {count n : Nat} (fits : n < room count) : numberOf (bytesOf count n) = n := by
  induction count generalizing n with
  | zero =>
    have none_ : n = 0 := Nat.lt_one_iff.mp fits
    simp [bytesOf, numberOf, none_]
  | succ count ih =>
    have high : n / 256 < room count := Nat.div_lt_of_lt_mul fits
    rw [bytesOf, numberOf_concat, ih high, UInt8.toNat_ofNat']
    omega

namespace IndexFormat

/-! ## Readers -/

variable {α β : Type} {x : Reader α} {front back : List UInt8} {a : α}

/-- The reader takes these bytes from the front of any, and answers with this. -/
def Reads (x : Reader α) (front : List UInt8) (a : α) : Prop := ∀ rest, x (front ++ rest) = some (a, rest)

theorem reads_pure (a : α) : Reads (pure a) [] a := fun _ => rfl

theorem Reads.bind {f : α → Reader β} {b : β} (first : Reads x front a) (next : Reads (f a) back b) :
    Reads (x >>= f) (front ++ back) b := by
  intro rest
  rw [List.append_assoc]
  change (x (front ++ (back ++ rest)) >>= fun found => f found.1 found.2) = _
  rw [first]
  exact next rest

theorem Reads.return {f : α → β} (first : Reads x front a) : Reads (x >>= fun a => pure (f a)) front (f a) := by
  have both : Reads (x >>= fun a => pure (f a)) (front ++ []) (f a) := first.bind (reads_pure (f a))
  rwa [List.append_nil] at both

theorem Reads.run (reads : Reads x front a) : x front = some (a, []) := by
  have alone := reads []
  rwa [List.append_nil] at alone

theorem Reads.guarded {p : Prop} [Decidable p] (reads : Reads x front a) (holds : p) :
    Reads (guard p >>= fun _ => x) front a := by
  have passes : Reads (guard p) [] () := by
    rw [guard, if_pos holds]
    exact reads_pure ()
  exact passes.bind reads

theorem reads_take {count : Nat} (long : front.length = count) : Reads (take count) front front := by
  intro rest
  subst long
  simp [take]

theorem reads_number {count n : Nat} (fits : n < room count) : Reads (number count) (bytesOf count n) n := by
  have taken : Reads (number count) (bytesOf count n) (numberOf (bytesOf count n)) :=
    (reads_take (length_bytesOf count n)).return
  rwa [numberOf_bytesOf fits] at taken

theorem reads_word (w : UInt32) : Reads word (bytesOf 4 w.toNat) w := by
  have taken : Reads word (bytesOf 4 w.toNat) (UInt32.ofNat w.toNat) := (reads_number w.toNat_lt).return
  rwa [UInt32.ofNat_toNat] at taken

theorem reads_halfWord (w : UInt16) : Reads halfWord (bytesOf 2 w.toNat) w := by
  have taken : Reads halfWord (bytesOf 2 w.toNat) (UInt16.ofNat w.toNat) := (reads_number w.toNat_lt).return
  rwa [UInt16.ofNat_toNat] at taken

theorem reads_vector {count : Nat} (v : Vector UInt8 count) : Reads (vector count) v.toList v := by
  intro rest
  have enough : count ≤ (v.toList ++ rest).length := by simp
  have front : (v.toList ++ rest).take count = v.toList := by simp
  rw [vector, dif_pos enough, List.drop_left' v.length_toList]
  congr 2
  exact Vector.toList_inj.mp front

theorem reads_upToZero {path : List UInt8} (none_ : 0 ∉ path) : Reads upToZero (path ++ [0]) path := by
  intro rest
  have other : ∀ b ∈ path, decide (b ≠ 0) = true := fun b member => by
    simpa using fun zero : b = 0 => none_ (zero ▸ member)
  rw [upToZero, List.append_assoc, List.dropWhile_append_of_pos other, List.takeWhile_append_of_pos other]
  simp

/-! ## Entries -/

/-- An entry that its bytes tell. -/
structure Record.Plain (r : Record) : Prop where
  visible : 0 ∉ r.path
  further : isExtended r.flags = false → r.furtherFlags = 0

variable {r : Record} {version : Nat} {previous : List UInt8}

theorem reads_furtherFlags (plain : r.Plain) : Reads (furtherFlags r.flags)
    (if isExtended r.flags then bytesOf 2 r.furtherFlags.toNat else []) r.furtherFlags := by
  rw [furtherFlags]
  split
  · exact reads_halfWord r.furtherFlags
  next none_ =>
    rw [plain.further (by simpa using none_)]
    exact reads_pure 0

theorem reads_pathAfter (plain : r.Plain) (older : version ≠ 4) :
    Reads (pathAfter version r.flags previous) (r.path ++ List.replicate (Record.padding r.flags r.path) 0) r.path := by
  have some_ : Record.padding r.flags r.path = 1 + (Record.padding r.flags r.path - 1) := by
    have : 0 < Record.padding r.flags r.path := Nat.sub_pos_of_lt (Nat.mod_lt _ (by decide))
    omega
  rw [pathAfter, if_neg older, some_, ← List.replicate_append_replicate, ← List.append_assoc]
  exact (reads_upToZero plain.visible).bind (reads_take List.length_replicate).return

theorem reads_record (plain : r.Plain) (older : version ≠ 4) : Reads (record version previous) r.bytes r :=
  (reads_take List.length_replicate).bind <| (reads_word r.mode).bind <| (reads_take List.length_replicate).bind <|
    (reads_vector r.name).bind <| (reads_halfWord r.flags).bind <| (reads_furtherFlags plain).bind <|
    (reads_pathAfter plain older).return

theorem reads_records {rs : List Record} (plain : ∀ r ∈ rs, r.Plain) (older : version ≠ 4) :
    Reads (records version rs.length previous) (rs.flatMap Record.bytes) rs := by
  induction rs generalizing previous with
  | nil => exact reads_pure []
  | cons r rs ih =>
    rw [List.flatMap_cons]
    have others : Reads (records version rs.length r.path) (rs.flatMap Record.bytes) rs :=
      ih fun other member => plain other (List.mem_cons_of_mem _ member)
    exact (reads_record (plain r List.mem_cons_self) older).bind others.return

/-! ## The file -/

theorem reads_unsealed {rs : List Record} (plain : ∀ r ∈ rs, r.Plain) (few : rs.length < room 4) :
    Reads allRecords (unsealed rs) rs := by
  have either : versionFor rs = 2 ∨ versionFor rs = 3 := by
    rw [versionFor]
    split
    · exact .inr rfl
    · exact .inl rfl
  have known : versionFor rs ∈ [2, 3, 4] := by simpa using either.imp_right Or.inl
  have fits : versionFor rs < room 4 := by
    rcases either with two | three <;> simp [room, *]
  have older : versionFor rs ≠ 4 := by omega
  have signature : Reads (take 4) Content.signature Content.signature := reads_take rfl
  refine signature.bind (Reads.guarded ?_ rfl)
  refine (reads_number fits).bind (Reads.guarded ?_ known)
  exact (reads_number few).bind (reads_records plain older)

theorem decode_encode {rs : List Record} (plain : ∀ r ∈ rs, r.Plain) (few : rs.length < room 4) :
    decode (encode rs) = some rs := by
  have cut : (encode rs).splitAt ((encode rs).length - sealSize) = (unsealed rs, (Digest.of (unsealed rs)).toList) := by
    have length : (encode rs).length - sealSize = (unsealed rs).length := by simp [encode, sealSize]
    rw [length, List.splitAt_eq, encode, List.take_left, List.drop_left]
  rw [decode, cut]
  dsimp only
  rw [(reads_unsealed plain few).run]
  exact if_pos ⟨rfl, .inl rfl⟩

/-! ## Entries of an index -/

/-- The entry with the name of its object in the place of its bytes. -/
def stored (entry : StagedEntry) : StagedEntry :=
  match entry.object with
  | .bytes _ =>
    let r := Record.ofEntry entry
    { entry with object := .object r.name r.mode r.flags r.furtherFlags }
  | .object .. => entry

/-- An entry that a file can hold: its path ends where a zero is, and if it comes
    from a file, then its mode and flags agree with the rest. -/
structure Holdable (entry : StagedEntry) : Prop where
  visible : 0 ∉ entry.path.toUTF8.data.toList
  agrees : ∀ name mode flags further, entry.object = .object name mode flags further →
    entry.executable = isExecutable mode.toNat ∧ (isExtended flags = false → further = 0)

variable {entry : StagedEntry}

theorem Holdable.plain (holdable : Holdable entry) : (Record.ofEntry entry).Plain := by
  rw [Record.ofEntry]
  cases known : entry.object with
  | bytes data => exact ⟨holdable.visible, fun _ => rfl⟩
  | object name mode flags further => exact ⟨holdable.visible, (holdable.agrees _ _ _ _ known).2⟩

theorem staged?_ofEntry (holdable : Holdable entry) : (Record.ofEntry entry).staged? = some (stored entry) := by
  have decoded : String.fromUTF8? ⟨entry.path.toUTF8.data.toList.toArray⟩ = some entry.path :=
    Content.text?_ofText entry.path
  obtain ⟨path, executable, object⟩ := entry
  cases object with
  | bytes data =>
    have mode : isExecutable (if executable then 0o100755 else 0o100644 : UInt32).toNat = executable := by
      cases executable <;> rfl
    simp only [Record.staged?, Record.ofEntry, stored, decoded, mode, Option.map_some]
  | object name mode flags further =>
    have agrees : executable = isExecutable mode.toNat := (holdable.agrees _ _ _ _ rfl).1
    simp only [Record.staged?, Record.ofEntry, stored, decoded, agrees, Option.map_some]

/-- The bytes of an index are those of an index with the same entries. -/
theorem content_ofIndex {index : Index} (holdable : ∀ entry ∈ index, Holdable entry) (few : index.length < room 4) :
    content (ofIndex index) = .index (index.map stored) := by
  have plain : ∀ r ∈ index.map Record.ofEntry, r.Plain := by
    simpa using fun entry listed => (holdable entry listed).plain
  have decoded := decode_encode plain (by simpa using few)
  have entries : (index.map Record.ofEntry).mapM Record.staged? = some (index.map stored) := by
    rw [List.mapM_map]
    exact mapM_eq_pure fun entry listed => staged?_ofEntry (holdable entry listed)
  simp only [content, ofIndex, List.toList_toArray, decoded, Option.bind_some, entries]

end IndexFormat

end ReleaseStamp.Git
