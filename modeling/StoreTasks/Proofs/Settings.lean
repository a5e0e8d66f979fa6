import StoreTasks.Proofs.Json.RoundTrip
import StoreTasks.Proofs.Sequencing
import StoreTasks.Settings

/-!
# Proofs — Settings

Which configurations are accepted, and what they settle (`Settings.ofText_print_eq_ok_iff`).

A configuration is an object that gives each of four keys once at most, and with a value of its
kind (`Admissible`).  What it settles is what these members say, and the default where they say
nothing (`Settles`); other members may be anything, and may repeat.

Two of the keys are checked where they stand, against the members before them
(`readMembers_eq_ok_iff`), and the other two when the object has ended.  Both checks come to the
same (`followAll_and_lateOk_iff`): for an accepted configuration it plays no part which key is
checked when.
-/

namespace StoreTasks.Settings

open Json

/-! ### Configurations -/

/-- The key is not given, or it is given once and with a value of the kind. -/
def Once (key : String) (kind : ValueKind) (members : List (String × Json)) : Prop :=
  members.filter (·.1 = key) = [] ∨
    ∃ value, members.filter (·.1 = key) = [(key, value)] ∧ kind.admits value = true

/-- The members can be those of a configuration. -/
structure Admissible (members : List (String × Json)) : Prop where
  pretty : Once "pretty" .flag members
  timezone : Once "timezone" .text members
  withDate : Once "with_date" .flag members
  deleted : Once "deleted" .flag members

/-- The members settle these settings. -/
structure Settles (members : List (String × Json)) (settings : Settings) : Prop where
  /-- Read maps are inline only if they are not to be pretty. -/
  inline_iff : settings.readMapStyle = .inline ↔ ("pretty", .bool false) ∈ members
  /-- The timezone is given, or else it is the default. -/
  timezone : ("timezone", .str settings.timezone) ∈ members ∨
    (∀ m ∈ members, m.1 ≠ "timezone") ∧ settings.timezone = "UTC"
  withDate_iff : settings.marks.withDate = true ↔ ("with_date", .bool true) ∈ members
  deleted_iff : settings.marks.deleted = true ↔ ("deleted", .bool true) ∈ members

/-! ### Values -/

/-- A value that is no list and no object starts with neither bracket. -/
theorem exists_chars_of_scalar {value : Json} (fits : Fits 0 value) (layout : Layout) :
    ∃ c text, value.chars layout = c :: text ∧ c ≠ '[' ∧ c ≠ '\x7b' := by
  cases fits with
  | null => exact ⟨_, _, by rw [chars], by decide, by decide⟩
  | bool b => cases b <;> exact ⟨_, _, by rw [chars], by decide, by decide⟩
  | str s => exact ⟨_, _, by rw [chars, stringText, List.cons_append], by decide, by decide⟩
  | @int _ n =>
      obtain ⟨c, text, htext, hc⟩ := exists_intText n
      exact ⟨c, text, by rw [chars, Number.text, htext], hc.ne rfl (by decide),
        hc.ne rfl (by decide)⟩

theorem readPart_chars {levels : Nat} {value : Json} (fits : Fits levels value) (layout : Layout)
    {space rest : List Char} (hspace : ∀ c ∈ space, isSpace c = true) (hrest : EndsNumeral rest) :
    readPart levels (space ++ (value.chars layout ++ rest)) = some (value.canonical, rest) := by
  have hlength : 2 * (value.chars layout).length
      ≤ readingSteps (space ++ (value.chars layout ++ rest)) := by
    simp only [readingSteps, List.length_append]
    omega
  rw [readPart, ← readValue_skipSpace, skipSpace_append hspace, readValue_skipSpace]
  exact fits.readBack layout _ rest hlength hrest

theorem orNotJson_eq_ok_iff {α : Type} {part : Option α} {a : α} :
    orNotJson part = .ok a ↔ part = some a := by
  cases part <;> simp [orNotJson]

section ReadKind

variable {value : Json} (layout : Layout) (kind : ValueKind) {space rest : List Char}
  (hspace : ∀ c ∈ space, isSpace c = true) {found : Json × List Char}
include hspace

/-- A list or an object is told by its bracket. -/
theorem readKind_of_bracket {c : Char} {text : List Char} (htext : value.chars layout = c :: text)
    (hc : c = '[' ∨ c = '\x7b') :
    readKind kind (space ++ (value.chars layout ++ rest)) = .error .wrongShape := by
  unfold readKind
  rw [skipSpace_append hspace, htext, List.cons_append]
  rcases hc with rfl | rfl
  · rw [skipSpace_of_not rfl]
    rfl
  · rw [skipSpace_of_not rfl]
    rfl

/-- Any other value is read, and then its kind is checked. -/
theorem readKind_of_scalar (fits : Fits 0 value) (hrest : EndsNumeral rest) :
    readKind kind (space ++ (value.chars layout ++ rest)) = .ok found ↔
      kind.admits value = true ∧ found = (value.canonical, rest) := by
  obtain ⟨c, text, htext, hbracket, hbrace⟩ := exists_chars_of_scalar fits layout
  have hread := readPart_chars fits layout (List.forall_mem_nil _) hrest
  rw [List.nil_append, htext, List.cons_append] at hread
  have hcanonical : value.canonical = value := by cases fits <;> simp [canonical]
  unfold readKind
  rw [skipSpace_append hspace, fits.skipSpace_chars, htext, List.cons_append]
  split
  · next h => exact absurd (List.cons.inj h).1 hbracket
  · next h => exact absurd (List.cons.inj h).1 hbrace
  · rw [hread, hcanonical]
    change (if kind.admits value = true then .ok (value, rest) else .error Cause.wrongShape)
      = Except.ok found ↔ _
    cases kind.admits value <;> simp [eq_comm]

/-- A value of a kind is read as it is, and no other is. -/
theorem readKind_eq_ok_iff {levels : Nat} (fits : Fits levels value) (hrest : EndsNumeral rest) :
    readKind kind (space ++ (value.chars layout ++ rest)) = .ok found ↔
      kind.admits value = true ∧ found = (value.canonical, rest) := by
  cases fits with
  | null => exact readKind_of_scalar layout kind hspace .null hrest
  | bool b => exact readKind_of_scalar layout kind hspace (.bool b) hrest
  | str s => exact readKind_of_scalar layout kind hspace (.str s) hrest
  | int lower upper => exact readKind_of_scalar layout kind hspace (.int lower upper) hrest
  | @arr _ items =>
      have hkind : kind.admits (.arr items) = false := by cases kind <;> rfl
      obtain ⟨text, htext⟩ : ∃ text, (Json.arr items).chars layout = '[' :: text := by
        cases items with
        | nil => exact ⟨_, by rw [chars]⟩
        | cons => exact ⟨_, by rw [chars, List.cons_append, List.cons_append]⟩
      rw [readKind_of_bracket layout kind hspace htext (.inl rfl), hkind]
      simp
  | @obj _ members =>
      have hkind : kind.admits (.obj members) = false := by cases kind <;> rfl
      obtain ⟨text, htext⟩ : ∃ text, (Json.obj members).chars layout = '\x7b' :: text := by
        cases members with
        | nil => exact ⟨_, by rw [chars]⟩
        | cons =>
            rw [chars]
            exact ⟨_, rfl⟩
      rw [readKind_of_bracket layout kind hspace htext (.inr rfl), hkind]
      simp

end ReadKind

/-! ### Members -/

/-- The member in canonical form. -/
def canonicalMember (member : String × Json) : String × Json :=
  (member.1, member.2.canonical)

/-- The member can stand after those before it: a key that is checked at once is new, and its value
has its kind. -/
def Follows (before : List (String × Json)) (member : String × Json) : Prop :=
  ∀ kind, promptKind? member.1 = some kind →
    (∀ m ∈ before, m.1 ≠ member.1) ∧ kind.admits member.2 = true

/-- A printed member is read where it can stand after those before it. -/
theorem readMember_eq_ok_iff {layout : Layout} {value : Json} (fits : Fits (maxLevels - 1) value)
    (before : List (String × Json)) (key : String) {rest : List Char} (hrest : EndsNumeral rest)
    {found : (String × Json) × List Char} :
    Settings.readMember before (stringText key ++ (layout.colon
        ++ (value.chars layout.inner ++ rest))) = .ok found ↔
      Follows before (key, value) ∧ found = (canonicalMember (key, value), rest) := by
  obtain ⟨space, hspace, hcolon⟩ := readColon_colon layout (value.chars layout.inner ++ rest)
  have hstart : skipSpace (stringText key ++ (layout.colon ++ (value.chars layout.inner ++ rest)))
      = stringText key ++ (layout.colon ++ (value.chars layout.inner ++ rest)) := by
    rw [stringText, List.cons_append, List.cons_append, skipSpace_of_not rfl]
  unfold Settings.readMember Follows
  simp only [bind_eq_ok_iff, orNotJson_eq_ok_iff, hstart, readString_stringText, Option.some.injEq,
    exists_eq_left']
  cases hkind : promptKind? key with
  | none =>
      simp only [bind_eq_ok_iff, orNotJson_eq_ok_iff, hcolon, Option.some.injEq, exists_eq_left',
        readPart_chars fits layout.inner hspace hrest]
      refine ⟨fun h => ⟨?_, (Except.ok.inj h).symm⟩, fun h => congrArg Except.ok h.2.symm⟩
      intro _ h
      cases h
  | some kind =>
      by_cases hnew : ∀ m ∈ before, m.1 ≠ key
      · have hany : before.any (fun x => decide (x.1 = key)) = false := by simpa using hnew
        simp only [hany, Bool.false_eq_true, if_false, bind_eq_ok_iff, orNotJson_eq_ok_iff, hcolon,
          Option.some.injEq, exists_eq_left',
          readKind_eq_ok_iff layout.inner kind hspace fits hrest]
        refine ⟨?_, ?_⟩
        · rintro ⟨_, ⟨hadmits, rfl⟩, ⟨⟩⟩
          exact ⟨fun _ h => h ▸ ⟨hnew, hadmits⟩, rfl⟩
        · rintro ⟨hfollows, rfl⟩
          exact ⟨_, ⟨(hfollows kind rfl).2, rfl⟩, rfl⟩
      · have hany : before.any (fun x => decide (x.1 = key)) = true := by simpa using hnew
        simp only [hany, if_true]
        refine ⟨fun h => ?_, fun h => absurd (h.1 kind rfl).1 hnew⟩
        cases h

/-- Each member can stand after those before it. -/
inductive FollowAll : List (String × Json) → List (String × Json) → Prop where
  | nil {before : List (String × Json)} : FollowAll before []
  | cons {before members : List (String × Json)} {member : String × Json}
      (first : Follows before member)
      (others : FollowAll (before ++ [canonicalMember member]) members) :
      FollowAll before (member :: members)

theorem followAll_cons_iff {before members : List (String × Json)} {member : String × Json} :
    FollowAll before (member :: members) ↔
      Follows before member ∧ FollowAll (before ++ [canonicalMember member]) members :=
  ⟨fun h => by cases h with | cons first others => exact ⟨first, others⟩,
    fun h => .cons h.1 h.2⟩

theorem readMember_newLine (layout : Layout) (before : List (String × Json)) (text : List Char) :
    Settings.readMember before (layout.newLine ++ text) = Settings.readMember before text := by
  unfold Settings.readMember
  rw [skipSpace_newLine]

/-- After a member comes another one, or the end of the object. -/
theorem readMembers_succ_eq_ok_iff {fuel : Nat} {before : List (String × Json)} {text : List Char}
    {found : List (String × Json) × List Char} :
    Settings.readMembers (fuel + 1) before text = .ok found ↔
      ∃ member rest, Settings.readMember before text = .ok (member, rest) ∧
        ((∃ text, skipSpace rest = ',' :: text ∧
            Settings.readMembers fuel (before ++ [member]) text = .ok found) ∨
          ∃ text, skipSpace rest = '\x7d' :: text ∧ (before ++ [member], text) = found) := by
  rw [Settings.readMembers, bind_eq_ok_iff]
  refine ⟨?_, ?_⟩
  · rintro ⟨⟨member, rest⟩, hmember, h⟩
    refine ⟨member, rest, hmember, ?_⟩
    dsimp only at h
    split at h
    · next text hcomma => exact .inl ⟨text, hcomma, h⟩
    · next text hbrace => exact .inr ⟨text, hbrace, Except.ok.inj h⟩
    · cases h
  · rintro ⟨member, rest, hmember, ⟨text, hcomma, h⟩ | ⟨text, hbrace, rfl⟩⟩
    · exact ⟨_, hmember, by simp only [hcomma, h]⟩
    · exact ⟨_, hmember, by simp only [hbrace]; rfl⟩

/-- Members are read one after another, each after those before it. -/
theorem readMembers_eq_ok_iff {layout : Layout} {rest : List Char}
    {members : List (String × Json)} :
    ∀ {fuel : Nat} {before : List (String × Json)} {key : String} {value : Json}
      {found : List (String × Json) × List Char},
      (∀ m ∈ (key, value) :: members, Fits (maxLevels - 1) m.2) → members.length < fuel →
      (Settings.readMembers fuel before (layout.inner.newLine ++ (stringText key ++ (layout.colon
          ++ (value.chars layout.inner ++ (membersTail layout members ++ rest))))) = .ok found ↔
        FollowAll before ((key, value) :: members) ∧
          (before ++ ((key, value) :: members).map canonicalMember, rest) = found) := by
  -- The first member stays apart from the others, since only a comma leads to another one.
  induction members with
  | nil =>
      intro fuel before key value found fits hfuel
      obtain ⟨fuel, rfl⟩ := Nat.exists_eq_succ_of_ne_zero (Nat.ne_of_gt hfuel)
      have hend : skipSpace (membersTail layout [] ++ rest) = '\x7d' :: rest := by
        rw [membersTail, List.append_assoc, skipSpace_newLine]
        rfl
      rw [readMembers_succ_eq_ok_iff, readMember_newLine]
      simp only [readMember_eq_ok_iff (fits _ List.mem_cons_self) before key
        (endsNumeral_membersTail layout [] rest), followAll_cons_iff]
      refine ⟨?_, ?_⟩
      · rintro ⟨_, _, ⟨hfollows, ⟨⟩⟩, ⟨text, hcomma, -⟩ | ⟨text, hbrace, rfl⟩⟩
        · cases hend.symm.trans hcomma
        · cases hend.symm.trans hbrace
          exact ⟨⟨hfollows, .nil⟩, rfl⟩
      · rintro ⟨⟨hfollows, -⟩, rfl⟩
        exact ⟨_, _, ⟨hfollows, rfl⟩, .inr ⟨_, hend, rfl⟩⟩
  | cons second members ih =>
      intro fuel before key value found fits hfuel
      obtain ⟨k, v⟩ := second
      obtain ⟨fuel, rfl⟩ := Nat.exists_eq_succ_of_ne_zero (Nat.ne_of_gt (Nat.zero_lt_of_lt hfuel))
      have hnext : skipSpace (membersTail layout ((k, v) :: members) ++ rest)
          = ',' :: (layout.inner.newLine ++ (stringText k ++ (layout.colon
            ++ (v.chars layout.inner ++ (membersTail layout members ++ rest))))) := by
        rw [membersTail]
        simp only [List.cons_append, List.append_assoc]
        rw [skipSpace_of_not rfl]
      have hothers := @ih fuel (before ++ [canonicalMember (key, value)]) k v found
        (fun m hm => fits m (List.mem_cons_of_mem _ hm)) (Nat.lt_of_succ_lt_succ hfuel)
      rw [readMembers_succ_eq_ok_iff, readMember_newLine]
      simp only [readMember_eq_ok_iff (fits _ List.mem_cons_self) before key
        (endsNumeral_membersTail layout ((k, v) :: members) rest)]
      rw [followAll_cons_iff]
      refine ⟨?_, ?_⟩
      · rintro ⟨_, _, ⟨hfollows, ⟨⟩⟩, ⟨text, hcomma, h⟩ | ⟨text, hbrace, -⟩⟩
        · cases hnext.symm.trans hcomma
          obtain ⟨hall, rfl⟩ := hothers.mp h
          exact ⟨⟨hfollows, hall⟩, by simp⟩
        · cases hnext.symm.trans hbrace
      · rintro ⟨⟨hfollows, hall⟩, rfl⟩
        exact ⟨_, _, ⟨hfollows, rfl⟩, .inl ⟨_, hnext, hothers.mpr ⟨hall, by simp⟩⟩⟩

/-! ### Objects -/

theorem readMembers_newLine (layout : Layout) (fuel : Nat) (before : List (String × Json))
    (text : List Char) :
    Settings.readMembers fuel before (layout.newLine ++ text)
      = Settings.readMembers fuel before text := by
  cases fuel with
  | zero => rfl
  | succ fuel => rw [Settings.readMembers, readMember_newLine, Settings.readMembers]

theorem length_lt_membersTail (layout : Layout) (members : List (String × Json)) :
    members.length < (membersTail layout members).length := by
  induction members with
  | nil =>
      rw [membersTail, List.length_append]
      exact Nat.lt_add_left _ Nat.one_pos
  | cons first members ih =>
      obtain ⟨k, v⟩ := first
      rw [membersTail]
      simp only [List.length_append, List.length_cons]
      omega

/-- An object is read when each of its members can stand after those before it. -/
theorem readObject_eq_ok_iff {members : List (String × Json)}
    (fits : ∀ m ∈ members, Fits (maxLevels - 1) m.2) (layout : Layout)
    {found : List (String × Json) × List Char} :
    readObject ((Json.obj members).chars layout) = .ok found ↔
      FollowAll [] members ∧ (members.map canonicalMember, []) = found := by
  cases members with
  | nil =>
      rw [chars]
      exact ⟨fun h => ⟨.nil, Except.ok.inj h⟩, fun h => congrArg Except.ok h.2⟩
  | cons first members =>
      obtain ⟨k, v⟩ := first
      have hread := @readMembers_eq_ok_iff layout [] members
        (stringText k ++ (layout.colon ++ (v.chars layout.inner
          ++ (membersTail layout members ++ [])))).length [] k v found fits (by
            have hlength := length_lt_membersTail layout members
            simp only [List.length_append]
            omega)
      rw [readMembers_newLine, List.nil_append] at hread
      rw [chars, ← hread]
      simp only [List.append_nil, List.cons_append, List.append_assoc]
      unfold readObject
      rw [skipSpace_of_not rfl]
      simp only [skipSpace_newLine, stringText, List.cons_append]
      rw [skipSpace_of_not rfl]
      rfl

/-- What is read starts with a brace. -/
theorem exists_brace_of_readObject {text : List Char} {found : List (String × Json) × List Char}
    (h : readObject text = .ok found) : ∃ rest, skipSpace text = '\x7b' :: rest := by
  unfold readObject at h
  split at h
  · next rest hbrace => exact ⟨rest, hbrace⟩
  · cases h
  · obtain ⟨_, -, h⟩ := bind_eq_ok_iff.mp h
    cases h

/-- What is printed with a brace at its start is an object. -/
theorem exists_members_of_brace {levels : Nat} {value : Json} (fits : Fits levels value)
    {layout : Layout} {rest : List Char} (h : value.chars layout = '\x7b' :: rest) :
    ∃ members, value = .obj members := by
  have hscalar : ¬ Fits 0 value := by
    intro fits
    obtain ⟨c, text, htext, -, hbrace⟩ := exists_chars_of_scalar fits layout
    exact hbrace (List.cons.inj (htext.symm.trans h)).1
  cases fits with
  | null => exact absurd .null hscalar
  | bool b => exact absurd (.bool b) hscalar
  | str s => exact absurd (.str s) hscalar
  | int lower upper => exact absurd (.int lower upper) hscalar
  | @arr _ items => cases items <;> cases h
  | @obj _ members => exact ⟨members, rfl⟩

/-! ### Keys -/

/-- Two keys are checked where they stand: a flag and a text. -/
theorem promptKind?_eq_some_iff {key : String} {kind : ValueKind} :
    promptKind? key = some kind ↔
      key = "pretty" ∧ kind = .flag ∨ key = "timezone" ∧ kind = .text := by
  unfold promptKind?
  split <;> simp_all [eq_comm]

/-- Members that are checked where they stand are those that are there once, and not before. -/
theorem followAll_iff {members : List (String × Json)} : ∀ {before : List (String × Json)},
    FollowAll before members ↔ ∀ key kind, promptKind? key = some kind →
      members.filter (·.1 = key) = [] ∨
        (∀ m ∈ before, m.1 ≠ key) ∧
          ∃ value, members.filter (·.1 = key) = [(key, value)] ∧ kind.admits value = true := by
  induction members with
  | nil => exact ⟨fun _ _ _ _ => .inl rfl, fun _ => .nil⟩
  | cons first members ih =>
      intro before
      obtain ⟨k, v⟩ := first
      rw [followAll_cons_iff, ih]
      refine ⟨?_, fun h => ⟨fun kind hkind => ?_, fun key kind hkind => ?_⟩⟩
      · rintro ⟨hfollows, hothers⟩ key kind hkind
        by_cases hkey : k = key
        · subst hkey
          obtain ⟨hnew, hadmits⟩ := hfollows kind hkind
          -- The member counts as one before the others, so none of these has its key.
          rcases hothers k kind hkind with hnone | ⟨hbefore, -⟩
          · exact .inr ⟨hnew, v, by simp [hnone], hadmits⟩
          · exact absurd rfl (hbefore (canonicalMember (k, v)) (by simp))
        · rw [List.filter_cons_of_neg (by simpa using hkey)]
          exact (hothers key kind hkind).imp_right fun ⟨hbefore, hvalue⟩ =>
            ⟨fun m hm => hbefore m (List.mem_append_left _ hm), hvalue⟩
      · rcases h k kind hkind with hnone | ⟨hnew, value, hvalue, hadmits⟩
        · simp at hnone
        · rw [List.filter_cons_of_pos (by simp)] at hvalue
          obtain rfl : v = value := (Prod.mk.inj (List.cons.inj hvalue).1).2
          exact ⟨hnew, hadmits⟩
      · by_cases hkey : k = key
        · subst hkey
          rcases h k kind hkind with hnone | ⟨-, value, hvalue, -⟩
          · simp at hnone
          · rw [List.filter_cons_of_pos (by simp)] at hvalue
            exact .inl (List.cons.inj hvalue).2
        · have hall := h key kind hkind
          rw [List.filter_cons_of_neg (by simpa using hkey)] at hall
          refine hall.imp_right fun ⟨hbefore, hvalue⟩ =>
            ⟨List.forall_mem_append.mpr ⟨hbefore, List.forall_mem_singleton.mpr hkey⟩, hvalue⟩

/-- The members of a key are the same ones in canonical form. -/
theorem filter_map_canonicalMember (key : String) (members : List (String × Json)) :
    (members.map canonicalMember).filter (·.1 = key)
      = (members.filter (·.1 = key)).map canonicalMember := by
  rw [List.filter_map]
  rfl

/-- The check at the end is that of the other two keys, both flags. -/
theorem lateOk_iff {members : List (String × Json)} :
    lateOk (members.map canonicalMember) = true ↔
      Once "with_date" .flag members ∧ Once "deleted" .flag members := by
  have hlate : (∀ key ∈ lateKeys, Once key .flag members) ↔
      Once "with_date" .flag members ∧ Once "deleted" .flag members := by simp [lateKeys]
  rw [← hlate, lateOk, List.all_eq_true]
  refine forall₂_congr fun key _ => ?_
  have hkeys : ∀ m ∈ members.filter (·.1 = key), m.1 = key := fun m hm =>
    of_decide_eq_true (List.mem_filter.mp hm).2
  rw [filter_map_canonicalMember, Once]
  generalize members.filter (·.1 = key) = given at hkeys ⊢
  rcases given with _ | ⟨⟨k, v⟩, _ | ⟨second, rest⟩⟩
  · simp
  · obtain rfl : k = key := hkeys _ List.mem_cons_self
    cases v <;> simp [canonicalMember, canonical, ValueKind.admits]
  · simp

/-! ### What is settled -/

theorem canonicalMembers_eq_map (members : List (String × Json)) :
    canonicalMembers members = members.map canonicalMember := by
  induction members with
  | nil => rfl
  | cons first members ih => rw [canonicalMembers, ih, List.map_cons, canonicalMember]

theorem lookup_of_filter_eq_singleton {key : String} {value : Json}
    {members : List (String × Json)} (h : members.filter (·.1 = key) = [(key, value)]) :
    lookup key members = some value := by
  induction members with
  | nil => cases h
  | cons first members ih =>
      obtain ⟨k, v⟩ := first
      by_cases hkey : k = key
      · rw [List.filter_cons_of_pos (by simpa using hkey)] at h
        obtain ⟨hfirst, hothers⟩ := List.cons.inj h
        rw [lookup, lookup_eq_none (by simpa using hothers), Option.none_or, if_pos hkey,
          (Prod.mk.inj hfirst).2]
      · rw [List.filter_cons_of_neg (by simpa using hkey)] at h
        rw [lookup, ih h, Option.some_or]

/-- A key that is given once at most is looked up as it is given. -/
theorem Once.lookup_cases {key : String} {kind : ValueKind} {members : List (String × Json)}
    (once : Once key kind members) :
    ((∀ m ∈ members, m.1 ≠ key) ∧ lookup key (members.map canonicalMember) = none) ∨
      ∃ value, (∀ other, (key, other) ∈ members ↔ other = value) ∧ kind.admits value = true ∧
        lookup key (members.map canonicalMember) = some value := by
  rw [← canonicalMembers_eq_map, lookup_canonicalMembers]
  rcases once with hnone | ⟨value, hvalue, hadmits⟩
  · have hnone : ∀ m ∈ members, m.1 ≠ key := by simpa using hnone
    exact .inl ⟨hnone, by rw [lookup_eq_none hnone]; rfl⟩
  · have hcanonical : value.canonical = value := by
      cases kind <;> cases value <;> simp_all [ValueKind.admits, canonical]
    refine .inr ⟨value, fun other => ?_, hadmits, ?_⟩
    · have hmem : (key, other) ∈ members.filter (·.1 = key) ↔ (key, other) ∈ members := by simp
      rw [← hmem, hvalue, List.mem_singleton, Prod.mk.injEq, and_iff_right rfl]
    · rw [lookup_of_filter_eq_singleton hvalue, Option.map_some, hcanonical]

/-- A flag has the value that is not the default only if it is given. -/
theorem Once.flag_eq_iff {key : String} {members : List (String × Json)}
    (once : Once key .flag members) (default : Bool) :
    flag (members.map canonicalMember) key default = !default ↔
      (key, .bool !default) ∈ members := by
  rw [flag]
  rcases once.lookup_cases with ⟨hnone, hlookup⟩ | ⟨value, hvalue, hadmits, hlookup⟩
  · rw [hlookup]
    exact iff_of_false (by simp) fun hmem => hnone _ hmem rfl
  · rw [hlookup, hvalue]
    cases value with
    | bool c => exact ⟨fun h => congrArg Json.bool h.symm, fun h => (Json.bool.inj h).symm⟩
    | _ => cases hadmits

/-- The timezone is the one that is given, or else the default. -/
theorem Once.timezone_iff {members : List (String × Json)} (once : Once "timezone" .text members)
    {timezone : String} :
    (ofMembers (members.map canonicalMember)).timezone = timezone ↔
      ("timezone", .str timezone) ∈ members ∨
        (∀ m ∈ members, m.1 ≠ "timezone") ∧ timezone = "UTC" := by
  rcases once.lookup_cases with ⟨hnone, hlookup⟩ | ⟨value, hvalue, hadmits, hlookup⟩
  · simp only [ofMembers, hlookup]
    refine ⟨fun h => .inr ⟨hnone, h.symm⟩, ?_⟩
    rintro (hmem | ⟨-, rfl⟩)
    · exact absurd rfl (hnone _ hmem)
    · rfl
  · simp only [ofMembers, hlookup, hvalue]
    cases value with
    | str s =>
        refine ⟨fun h => .inl (congrArg Json.str h.symm), ?_⟩
        rintro (h | ⟨hnone, -⟩)
        · exact (Json.str.inj h).symm
        · exact absurd rfl (hnone _ ((hvalue _).mpr rfl))
    | _ => cases hadmits

/-- What members settle is what is taken from them. -/
theorem settles_iff {members : List (String × Json)} (admissible : Admissible members)
    {settings : Settings} :
    Settles members settings ↔ ofMembers (members.map canonicalMember) = settings := by
  obtain ⟨style, timezone, withDate, deleted⟩ := settings
  have hstyle : (if flag (members.map canonicalMember) "pretty" true = true
      then Document.ReadMapStyle.structured else .inline) = style ↔
        (style = .inline ↔ ("pretty", .bool false) ∈ members) := by
    have hflag := admissible.pretty.flag_eq_iff true
    rw [Bool.not_true] at hflag
    rw [← hflag]
    cases style <;> simp
  have hmark : ∀ {key : String} {b : Bool}, Once key .flag members →
      (flag (members.map canonicalMember) key false = b ↔
        (b = true ↔ (key, .bool true) ∈ members)) := by
    intro key b once
    have hflag := once.flag_eq_iff false
    rw [Bool.not_false] at hflag
    rw [← hflag]
    cases b <;> simp
  simp only [ofMembers, Settings.mk.injEq, Destination.Marks.mk.injEq, hstyle,
    hmark admissible.withDate, hmark admissible.deleted]
  exact ⟨fun h => ⟨h.inline_iff, admissible.timezone.timezone_iff.mpr h.timezone, h.withDate_iff,
      h.deleted_iff⟩,
    fun h => ⟨h.1, admissible.timezone.timezone_iff.mp h.2.1, h.2.2.1, h.2.2.2⟩⟩

/-- The members can stand one after another, and pass the check at the end, when each key is given
once at most. -/
theorem followAll_and_lateOk_iff {members : List (String × Json)} :
    FollowAll [] members ∧ lateOk (members.map canonicalMember) = true ↔ Admissible members := by
  rw [followAll_iff, lateOk_iff]
  refine ⟨fun ⟨hprompt, withDate, deleted⟩ => ?_, fun admissible => ?_⟩
  · have hof : ∀ key kind, promptKind? key = some kind → Once key kind members :=
      fun key kind hkind => (hprompt key kind hkind).imp_right And.right
    exact ⟨hof "pretty" .flag rfl, hof "timezone" .text rfl, withDate, deleted⟩
  · refine ⟨fun key kind hkind => ?_, admissible.withDate, admissible.deleted⟩
    have once : Once key kind members := by
      rcases promptKind?_eq_some_iff.mp hkind with ⟨rfl, rfl⟩ | ⟨rfl, rfl⟩
      · exact admissible.pretty
      · exact admissible.timezone
    exact once.imp_right fun hvalue => ⟨List.forall_mem_nil _, hvalue⟩

/-- **Which configurations are accepted, and what they settle.**  A value that was printed, in
either layout, is accepted as a configuration exactly when it is an object that gives the four keys
once at most and with values of their kinds, and then its members settle the settings. -/
theorem ofText_print_eq_ok_iff {value : Json} (fits : Fits maxLevels value) (layout : Layout)
    {settings : Settings} :
    ofText (String.ofList (value.chars layout)) = .ok settings ↔
      ∃ members, value = .obj members ∧ Admissible members ∧ Settles members settings := by
  have hobject : ∀ members, Fits maxLevels (.obj members) →
      (ofText (String.ofList ((Json.obj members).chars layout)) = .ok settings ↔
        Admissible members ∧ Settles members settings) := by
    intro members fits
    have hmembers : ∀ m ∈ members, Fits (maxLevels - 1) m.2 := by
      cases (show Fits (126 + 1) (.obj members) from fits) with
      | obj members_fit => exact members_fit
    rw [ofText, String.toList_ofList, bind_eq_ok_iff]
    simp only [readObject_eq_ok_iff hmembers]
    refine ⟨?_, ?_⟩
    · rintro ⟨_, ⟨hfollow, rfl⟩, h⟩
      cases hlate : lateOk (members.map canonicalMember) with
      | false =>
          simp only [hlate] at h
          cases h
      | true =>
          simp only [hlate] at h
          have admissible := followAll_and_lateOk_iff.mp ⟨hfollow, hlate⟩
          exact ⟨admissible, (settles_iff admissible).mpr (Except.ok.inj h)⟩
    · rintro ⟨admissible, hsettles⟩
      obtain ⟨hfollow, hlate⟩ := followAll_and_lateOk_iff.mpr admissible
      refine ⟨_, ⟨hfollow, rfl⟩, ?_⟩
      simp only [hlate]
      exact congrArg Except.ok ((settles_iff admissible).mp hsettles)
  refine ⟨fun h => ?_, ?_⟩
  · obtain ⟨found, hread, -⟩ := bind_eq_ok_iff.mp h
    obtain ⟨rest, hbrace⟩ := exists_brace_of_readObject hread
    have hstart := fits.skipSpace_chars layout []
    rw [List.append_nil] at hstart
    rw [String.toList_ofList, hstart] at hbrace
    obtain ⟨members, rfl⟩ := exists_members_of_brace fits hbrace
    exact ⟨members, rfl, (hobject members fits).mp h⟩
  · rintro ⟨members, rfl, h⟩
    exact (hobject members fits).mpr h

end StoreTasks.Settings
