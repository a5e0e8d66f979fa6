import StoreTasks.Proofs.Json.Members
import StoreTasks.Proofs.Json.Scalars

/-!
# Proofs — Json — printing and reading back

A value that was printed, in either layout, is read back as its canonical form
(`read?_compact`, `read?_pretty`).  `Fits` says which values this holds for: those whose numbers
are integers of 64 bits and whose lists and objects nest no deeper than the reader allows.
-/

namespace StoreTasks.Json

/-- The value has integers of 64 bits only, and at most the number of levels of lists and
objects. -/
inductive Fits : Nat → Json → Prop where
  | null {levels : Nat} : Fits levels .null
  | bool {levels : Nat} (b : Bool) : Fits levels (.bool b)
  | str {levels : Nat} (s : String) : Fits levels (.str s)
  | int {levels : Nat} {n : Int} (lower : -0x8000_0000_0000_0000 ≤ n)
      (upper : n < 0x1_0000_0000_0000_0000) : Fits levels (.num (.int n))
  | arr {levels : Nat} {items : List Json} (items_fit : ∀ v ∈ items, Fits levels v) :
      Fits (levels + 1) (.arr items)
  | obj {levels : Nat} {members : List (String × Json)}
      (members_fit : ∀ m ∈ members, Fits levels m.2) : Fits (levels + 1) (.obj members)

theorem Fits.succ {levels : Nat} {value : Json} (h : Fits levels value) :
    Fits (levels + 1) value := by
  induction h with
  | null => exact .null
  | bool b => exact .bool b
  | str s => exact .str s
  | int lower upper => exact .int lower upper
  | arr _ ih => exact .arr ih
  | obj _ ih => exact .obj ih

/-- A value that fits fits within more levels too. -/
theorem Fits.mono {levels more : Nat} {value : Json} (h : Fits levels value)
    (hle : levels ≤ more) : Fits more value := by
  induction hle with
  | refl => exact h
  | step _ ih => exact ih.succ

theorem Fits.no_members {levels : Nat} : ∀ m ∈ ([] : List (String × Json)), Fits levels m.2 :=
  List.forall_mem_nil _

theorem Fits.member {levels : Nat} {key : String} {value : Json} {members : List (String × Json)}
    (first : Fits levels value) (others : ∀ m ∈ members, Fits levels m.2) :
    ∀ m ∈ (key, value) :: members, Fits levels m.2 :=
  List.forall_mem_cons.mpr ⟨first, others⟩

/-- A list fits when its items fit into one level less. -/
theorem Fits.arr_map {α : Type} {levels : Nat} {f : α → Json} {xs : List α}
    (h : ∀ x ∈ xs, Fits levels (f x)) : Fits (levels + 1) (.arr (xs.map f)) :=
  .arr (List.forall_mem_map.mpr h)

/-! ### Space -/

theorem skipSpace_of_not {c : Char} (h : isSpace c = false) (rest : List Char) :
    skipSpace (c :: rest) = c :: rest := by
  rw [skipSpace, List.dropWhile_cons_of_neg (by rw [h]; exact Bool.false_ne_true)]

theorem skipSpace_cons {c : Char} (h : isSpace c = true) (rest : List Char) :
    skipSpace (c :: rest) = skipSpace rest := by
  rw [skipSpace, List.dropWhile_cons_of_pos h, skipSpace]

/-- All space at the start is skipped. -/
theorem skipSpace_append {space : List Char} (h : ∀ c ∈ space, isSpace c = true)
    (rest : List Char) : skipSpace (space ++ rest) = skipSpace rest := by
  induction space with
  | nil => rfl
  | cons c space ih =>
      rw [List.cons_append, skipSpace_cons (h c List.mem_cons_self),
        ih fun c hc => h c (List.mem_cons_of_mem _ hc)]

theorem isSpace_of_mem_newLine {layout : Layout} {c : Char} (h : c ∈ layout.newLine) :
    isSpace c = true := by
  cases layout with
  | compact => exact absurd h List.not_mem_nil
  | pretty level =>
      rcases List.mem_cons.mp h with rfl | h
      · rfl
      · rw [List.eq_of_mem_replicate h]
        rfl

theorem skipSpace_newLine (layout : Layout) (rest : List Char) :
    skipSpace (layout.newLine ++ rest) = skipSpace rest :=
  skipSpace_append (fun _ => isSpace_of_mem_newLine) rest

theorem skipSpace_skipSpace (text : List Char) : skipSpace (skipSpace text) = skipSpace text := by
  induction text with
  | nil => rfl
  | cons c text ih =>
      cases h : isSpace c with
      | true => rw [skipSpace_cons h, ih]
      | false => rw [skipSpace_of_not h, skipSpace_of_not h]

/-- A value is read after any space. -/
theorem readValue_skipSpace (fuel levels : Nat) (text : List Char) :
    readValue fuel levels (skipSpace text) = readValue fuel levels text := by
  cases fuel with
  | zero => rw [readValue, readValue]
  | succ fuel => rw [readValue, skipSpace_skipSpace, readValue]

theorem readItems_skipSpace (fuel levels : Nat) (text : List Char) :
    readItems fuel levels (skipSpace text) = readItems fuel levels text := by
  cases fuel with
  | zero => rw [readItems, readItems]
  | succ fuel => rw [readItems, readValue_skipSpace, readItems]

theorem readMembers_skipSpace (fuel levels : Nat) (text : List Char) :
    readMembers fuel levels (skipSpace text) = readMembers fuel levels text := by
  cases fuel with
  | zero => rw [readMembers, readMembers]
  | succ fuel => rw [readMembers, skipSpace_skipSpace, readMembers]

/-- Items are read from the next line. -/
theorem readItems_newLine (layout : Layout) (fuel levels : Nat) (text : List Char) :
    readItems fuel levels (layout.newLine ++ text) = readItems fuel levels text := by
  rw [← readItems_skipSpace, skipSpace_newLine, readItems_skipSpace]

theorem readMembers_newLine (layout : Layout) (fuel levels : Nat) (text : List Char) :
    readMembers fuel levels (layout.newLine ++ text) = readMembers fuel levels text := by
  rw [← readMembers_skipSpace, skipSpace_newLine, readMembers_skipSpace]

/-! ### The start of a text -/

/-- The character starts a numeral. -/
def StartsNumeral (c : Char) : Prop :=
  Numeral.isDigit c = true ∨ c = '-'

theorem exists_intText (n : Int) : ∃ c text, intText n = c :: text ∧ StartsNumeral c := by
  cases n with
  | ofNat n =>
      rw [intText]
      cases hdigits : Nat.toDigits 10 n with
      | nil => exact absurd hdigits Nat.toDigits_ne_nil
      | cons d digits =>
          have hd : d ∈ Nat.toDigits 10 n := hdigits ▸ List.mem_cons_self
          exact ⟨d, digits, rfl, .inl (Numeral.isDigit_of_mem_toDigits hd)⟩
  | negSucc n => exact ⟨'-', Nat.toDigits 10 (n + 1), rfl, .inr rfl⟩

/-- The start of a number is no other character than a digit or a minus sign. -/
theorem StartsNumeral.ne {c d : Char} (h : StartsNumeral c) (hdigit : Numeral.isDigit d = false)
    (hminus : d ≠ '-') : c ≠ d := by
  rintro rfl
  rcases h with h | h
  · exact absurd (h.symm.trans hdigit) (Ne.symm Bool.false_ne_true)
  · exact hminus h

theorem StartsNumeral.isSpace_eq_false {c : Char} (h : StartsNumeral c) : isSpace c = false := by
  simp only [isSpace, Bool.or_eq_false_iff, beq_eq_false_iff_ne]
  exact ⟨⟨⟨h.ne rfl (by decide), h.ne rfl (by decide)⟩, h.ne rfl (by decide)⟩,
    h.ne rfl (by decide)⟩

/-- A text that starts a numeral is read as a number. -/
theorem readValue_of_startsNumeral {c : Char} (h : StartsNumeral c) (fuel levels : Nat)
    (text : List Char) :
    readValue (fuel + 1) levels (c :: text)
      = (Number.read (c :: text)).map fun (n, rest) => (.num n, rest) := by
  rw [readValue, skipSpace_of_not h.isSpace_eq_false]
  split
  all_goals try next heq => exact absurd (List.cons.inj heq).1 (h.ne rfl (by decide))
  rfl

/-- A text of a value starts with a character that is no space and closes no list. -/
theorem Fits.exists_chars {levels : Nat} {value : Json} (h : Fits levels value)
    (layout : Layout) :
    ∃ c text, value.chars layout = c :: text ∧ isSpace c = false ∧ c ≠ ']' := by
  cases h with
  | null => exact ⟨_, _, by rw [chars], rfl, by decide⟩
  | bool b => cases b <;> exact ⟨_, _, by rw [chars], rfl, by decide⟩
  | str s => exact ⟨_, _, by rw [chars, stringText, List.cons_append], rfl, by decide⟩
  | @int _ n _ _ =>
      obtain ⟨c, text, htext, hc⟩ := exists_intText n
      exact ⟨c, text, by rw [chars, Number.text, htext], hc.isSpace_eq_false,
        hc.ne rfl (by decide)⟩
  | @arr _ items _ =>
      cases items with
      | nil => exact ⟨_, _, by rw [chars], rfl, by decide⟩
      | cons v rest =>
          exact ⟨_, _, by rw [chars, List.cons_append, List.cons_append], rfl, by decide⟩
  | @obj _ members _ =>
      cases members with
      | nil => exact ⟨_, _, by rw [chars], rfl, by decide⟩
      | cons m rest =>
          rw [chars]
          simp only [List.cons_append]
          exact ⟨_, _, rfl, rfl, by decide⟩

/-- A printed value starts with no space. -/
theorem Fits.skipSpace_chars {levels : Nat} {value : Json} (h : Fits levels value)
    (layout : Layout) (rest : List Char) :
    skipSpace (value.chars layout ++ rest) = value.chars layout ++ rest := by
  obtain ⟨c, text, htext, hspace, _⟩ := h.exists_chars layout
  rw [htext, List.cons_append, skipSpace_of_not hspace]

/-! ### Values -/

/-- The text of the value is read back, whatever comes after it. -/
def ReadBack (levels : Nat) (layout : Layout) (value : Json) : Prop :=
  ∀ (fuel : Nat) (rest : List Char), 2 * (value.chars layout).length ≤ fuel → EndsNumeral rest →
    readValue fuel levels (value.chars layout ++ rest) = some (value.canonical, rest)

/-- There is a step to take while there is text, since there are two for each character. -/
theorem exists_step {text : List Char} {fuel : Nat} (hne : text ≠ [])
    (hfuel : 2 * text.length ≤ fuel) : ∃ n, fuel = n + 1 := by
  have hlength := List.length_pos_iff.mpr hne
  exact ⟨fuel - 1, by omega⟩

theorem endsNumeral_cons {c : Char} (h : continuesNumeral c = false) (rest : List Char) :
    EndsNumeral (c :: rest) :=
  fun _ hd => Option.some.inj hd ▸ h

theorem endsNumeral_newLine {layout : Layout} {rest : List Char} (h : EndsNumeral rest) :
    EndsNumeral (layout.newLine ++ rest) := by
  cases layout with
  | compact => exact h
  | pretty level => exact endsNumeral_cons rfl _

/-- A number ends where the item does. -/
theorem endsNumeral_itemsTail (layout : Layout) (items : List Json) (rest : List Char) :
    EndsNumeral (itemsTail layout items ++ rest) := by
  cases items with
  | nil =>
      rw [itemsTail, List.append_assoc]
      exact endsNumeral_newLine (endsNumeral_cons rfl _)
  | cons v items =>
      rw [itemsTail, List.cons_append, List.cons_append, List.cons_append]
      exact endsNumeral_cons rfl _

theorem endsNumeral_membersTail (layout : Layout) (members : List (String × Json))
    (rest : List Char) : EndsNumeral (membersTail layout members ++ rest) := by
  cases members with
  | nil =>
      rw [membersTail, List.append_assoc]
      exact endsNumeral_newLine (endsNumeral_cons rfl _)
  | cons m members =>
      rw [membersTail]
      simp only [List.cons_append]
      exact endsNumeral_cons rfl _

/-- A list that is not empty is read item by item. -/
theorem readValue_bracket {text rest : List Char} {c : Char} (htext : skipSpace text = c :: rest)
    (hc : c ≠ ']') (fuel levels : Nat) :
    readValue (fuel + 1) (levels + 1) ('[' :: text)
      = (readItems fuel levels text).map fun (items, rest) => (.arr items, rest) := by
  rw [readValue, skipSpace_of_not rfl]
  split
  all_goals try next heq => exact absurd (List.cons.inj heq).1 (by decide)
  · next heq =>
      obtain rfl := (List.cons.inj heq).2
      dsimp only
      split
      · next hclose => exact absurd (List.cons.inj (htext.symm.trans hclose)).1 hc
      · rw [readItems_skipSpace]
  · next hbracket _ => exact absurd rfl (hbracket text)

/-- An object that is not empty is read member by member. -/
theorem readValue_brace {text rest : List Char} {c : Char} (htext : skipSpace text = c :: rest)
    (hc : c ≠ '\x7d') (fuel levels : Nat) :
    readValue (fuel + 1) (levels + 1) ('\x7b' :: text)
      = (readMembers fuel levels text).map fun (members, rest) =>
          (.obj (sortMembers members), rest) := by
  rw [readValue, skipSpace_of_not rfl]
  split
  all_goals try next heq => exact absurd (List.cons.inj heq).1 (by decide)
  · next heq =>
      obtain rfl := (List.cons.inj heq).2
      dsimp only
      split
      · next hclose => exact absurd (List.cons.inj (htext.symm.trans hclose)).1 hc
      · rw [readMembers_skipSpace]
  · next hbrace => exact absurd rfl (hbrace text)

/-- The items of a list are read back when each of them is. -/
theorem readItems_itemsTail {levels : Nat} {layout : Layout} {items : List Json} :
    ∀ {first : Json} (fuel : Nat) (rest : List Char),
      (∀ v ∈ first :: items, ReadBack levels layout.inner v) →
      2 * ((first.chars layout.inner).length + (itemsTail layout items).length) ≤ fuel →
      readItems fuel levels (first.chars layout.inner ++ (itemsTail layout items ++ rest))
        = some (canonicalItems (first :: items), rest) := by
  induction items with
  | nil =>
      intro first fuel rest hitems hfuel
      have hlength : 1 ≤ (itemsTail layout []).length := by
        rw [itemsTail, List.length_append]
        exact Nat.le_add_left 1 _
      obtain ⟨fuel, rfl⟩ : ∃ n, fuel = n + 1 := ⟨fuel - 1, by omega⟩
      have hfirst := hitems first List.mem_cons_self fuel (itemsTail layout [] ++ rest)
        (by omega) (endsNumeral_itemsTail layout [] rest)
      simp only [readItems, hfirst]
      rw [itemsTail, List.append_assoc, skipSpace_newLine]
      rfl
  | cons second items ih =>
      intro first fuel rest hitems hfuel
      have hlength : (itemsTail layout (second :: items)).length
          = 1 + layout.inner.newLine.length + (second.chars layout.inner).length
            + (itemsTail layout items).length := by
        rw [itemsTail]
        simp only [List.length_append, List.length_cons]
        omega
      -- The comma pays for the step that is spent here.
      obtain ⟨fuel, rfl⟩ : ∃ n, fuel = n + 1 := ⟨fuel - 1, by omega⟩
      have hfirst := hitems first List.mem_cons_self fuel
        (itemsTail layout (second :: items) ++ rest)
        (by omega) (endsNumeral_itemsTail layout (second :: items) rest)
      have hothers : readItems fuel levels
          (layout.inner.newLine ++ (second.chars layout.inner ++ (itemsTail layout items ++ rest)))
            = some (canonicalItems (second :: items), rest) := by
        rw [readItems_newLine]
        exact ih fuel rest (fun v hv => hitems v (List.mem_cons_of_mem first hv)) (by omega)
      simp only [readItems, hfirst]
      rw [itemsTail]
      simp only [List.cons_append, List.append_assoc]
      rw [skipSpace_of_not rfl]
      simp only [hothers, Option.map_some]
      rfl

/-- After a colon there may be a space. -/
theorem readColon_colon (layout : Layout) (rest : List Char) :
    ∃ space : List Char, (∀ c ∈ space, isSpace c = true) ∧
      readColon (layout.colon ++ rest) = some (space ++ rest) := by
  cases layout with
  | compact =>
      refine ⟨[], fun c hc => absurd hc List.not_mem_nil, ?_⟩
      rw [readColon, Layout.colon, List.cons_append, skipSpace_of_not rfl]
      rfl
  | pretty level =>
      refine ⟨[' '], fun c hc => ?_, ?_⟩
      · rw [List.mem_singleton.mp hc]
        rfl
      · rw [readColon, Layout.colon, List.cons_append, skipSpace_of_not rfl]
        rfl

/-- A key, its colon and its value are read back. -/
theorem readMember {levels : Nat} {layout : Layout} {value : Json}
    (hvalue : ReadBack levels layout.inner value) (key : String) (fuel : Nat) {rest : List Char}
    (hfuel : 2 * (value.chars layout.inner).length ≤ fuel) (hrest : EndsNumeral rest) :
    ∃ text,
      (readString (skipSpace (stringText key ++ (layout.colon
        ++ (value.chars layout.inner ++ rest))))).bind
          (fun (k, rest) => (readColon rest).map fun rest => (k, rest)) = some (key, text) ∧
      readValue fuel levels text = some (value.canonical, rest) := by
  obtain ⟨space, hspace, hcolon⟩ := readColon_colon layout (value.chars layout.inner ++ rest)
  refine ⟨space ++ (value.chars layout.inner ++ rest), ?_, ?_⟩
  · have hstart : skipSpace (stringText key ++ (layout.colon ++ (value.chars layout.inner ++ rest)))
        = stringText key ++ (layout.colon ++ (value.chars layout.inner ++ rest)) := by
      rw [stringText, List.cons_append, List.cons_append, skipSpace_of_not rfl]
    rw [hstart, readString_stringText, Option.bind_some]
    simp only [hcolon, Option.map_some]
  · rw [← readValue_skipSpace, skipSpace_append hspace, readValue_skipSpace]
    exact hvalue fuel rest hfuel hrest

/-- The members of an object are read back when the value of each of them is. -/
theorem readMembers_membersTail {levels : Nat} {layout : Layout} {members : List (String × Json)} :
    ∀ {key : String} {value : Json} (fuel : Nat) (rest : List Char),
      (∀ m ∈ (key, value) :: members, ReadBack levels layout.inner m.2) →
      2 * ((stringText key).length + (value.chars layout.inner).length
        + (membersTail layout members).length) ≤ fuel →
      readMembers fuel levels (stringText key ++ (layout.colon ++ (value.chars layout.inner
          ++ (membersTail layout members ++ rest))))
        = some (canonicalMembers ((key, value) :: members), rest) := by
  induction members with
  | nil =>
      intro key value fuel rest hmembers hfuel
      have hlength : 1 ≤ (membersTail layout []).length := by
        rw [membersTail, List.length_append]
        exact Nat.le_add_left 1 _
      obtain ⟨fuel, rfl⟩ : ∃ n, fuel = n + 1 := ⟨fuel - 1, by omega⟩
      obtain ⟨text, hkey, hvalue⟩ := readMember (hmembers (key, value) List.mem_cons_self) key
        fuel (by dsimp only; omega) (endsNumeral_membersTail layout [] rest)
      simp only [readMembers, hkey, hvalue]
      rw [membersTail, List.append_assoc, skipSpace_newLine]
      rfl
  | cons second members ih =>
      intro key value fuel rest hmembers hfuel
      obtain ⟨k, v⟩ := second
      have hlength : (membersTail layout ((k, v) :: members)).length
          = 1 + layout.inner.newLine.length + (stringText k).length + layout.colon.length
            + (v.chars layout.inner).length + (membersTail layout members).length := by
        rw [membersTail]
        simp only [List.length_append, List.length_cons]
        omega
      obtain ⟨fuel, rfl⟩ : ∃ n, fuel = n + 1 := ⟨fuel - 1, by omega⟩
      obtain ⟨text, hkey, hvalue⟩ := readMember (hmembers (key, value) List.mem_cons_self) key
        fuel (by dsimp only; omega)
        (endsNumeral_membersTail layout ((k, v) :: members) rest)
      have hothers : readMembers fuel levels
          (layout.inner.newLine ++ (stringText k ++ (layout.colon ++ (v.chars layout.inner
            ++ (membersTail layout members ++ rest)))))
            = some (canonicalMembers ((k, v) :: members), rest) := by
        rw [readMembers_newLine]
        exact ih fuel rest (fun m hm => hmembers m (List.mem_cons_of_mem _ hm)) (by omega)
      simp only [readMembers, hkey, hvalue]
      rw [membersTail]
      simp only [List.cons_append, List.append_assoc]
      rw [skipSpace_of_not rfl]
      simp only [hothers, Option.map_some]
      rfl

/-- A list is read back when its items are. -/
theorem ReadBack.arr {levels : Nat} {layout : Layout} {first : Json} {items : List Json}
    (hfirst : Fits levels first) (hitems : ∀ v ∈ first :: items, ReadBack levels layout.inner v) :
    ReadBack (levels + 1) layout (.arr (first :: items)) := by
  intro fuel rest hfuel _
  have hlength : (chars layout (.arr (first :: items))).length
      = 1 + layout.inner.newLine.length + (first.chars layout.inner).length
        + (itemsTail layout items).length := by
    rw [chars]
    simp only [List.length_append, List.length_cons]
    omega
  obtain ⟨fuel, rfl⟩ : ∃ n, fuel = n + 1 := ⟨fuel - 1, by omega⟩
  have hread := readItems_itemsTail fuel rest hitems (by omega)
  -- The first item does not start with the bracket that closes an empty list.
  obtain ⟨c, text, htext, _, hc⟩ := hfirst.exists_chars layout.inner
  have hstart : skipSpace (layout.inner.newLine ++ (first.chars layout.inner
      ++ (itemsTail layout items ++ rest)))
        = c :: (text ++ (itemsTail layout items ++ rest)) := by
    rw [skipSpace_newLine, hfirst.skipSpace_chars, htext, List.cons_append]
  rw [chars]
  simp only [List.cons_append, List.append_assoc]
  rw [readValue_bracket hstart hc, readItems_newLine, hread]
  rfl

/-- An object is read back when the values of its members are. -/
theorem ReadBack.obj {levels : Nat} {layout : Layout} {key : String} {value : Json}
    {members : List (String × Json)}
    (hmembers : ∀ m ∈ (key, value) :: members, ReadBack levels layout.inner m.2) :
    ReadBack (levels + 1) layout (.obj ((key, value) :: members)) := by
  intro fuel rest hfuel _
  have hlength : (chars layout (.obj ((key, value) :: members))).length
      = 1 + layout.inner.newLine.length + (stringText key).length + layout.colon.length
        + (value.chars layout.inner).length + (membersTail layout members).length := by
    rw [chars]
    simp only [List.length_append, List.length_cons]
    omega
  obtain ⟨fuel, rfl⟩ : ∃ n, fuel = n + 1 := ⟨fuel - 1, by omega⟩
  have hread := readMembers_membersTail fuel rest hmembers (by omega)
  have hstart : skipSpace (layout.inner.newLine ++ (stringText key ++ (layout.colon
      ++ (value.chars layout.inner ++ (membersTail layout members ++ rest)))))
        = '"' :: (key.toList.flatMap escapeChar ++ ['"'] ++ (layout.colon
          ++ (value.chars layout.inner ++ (membersTail layout members ++ rest)))) := by
    rw [skipSpace_newLine, stringText, List.cons_append, List.cons_append,
      skipSpace_of_not rfl]
  rw [chars]
  simp only [List.cons_append, List.append_assoc]
  rw [readValue_brace hstart (by decide), readMembers_newLine, hread]
  rfl

/-- A value that fits is read back, in either layout and whatever comes after it. -/
theorem Fits.readBack {levels : Nat} {value : Json} (h : Fits levels value) :
    ∀ layout : Layout, ReadBack levels layout value := by
  -- Every two steps consume a character, so one step is left for a value of any text.
  induction h with
  | null =>
      intro layout fuel rest hfuel _
      rw [chars] at hfuel ⊢
      obtain ⟨fuel, rfl⟩ := exists_step (List.cons_ne_nil _ _) hfuel
      rfl
  | bool b =>
      intro layout fuel rest hfuel _
      cases b with
      | true =>
          rw [chars] at hfuel ⊢
          obtain ⟨fuel, rfl⟩ := exists_step (List.cons_ne_nil _ _) hfuel
          rfl
      | false =>
          rw [chars] at hfuel ⊢
          obtain ⟨fuel, rfl⟩ := exists_step (List.cons_ne_nil _ _) hfuel
          rfl
  | str s =>
      intro layout fuel rest hfuel _
      rw [chars] at hfuel ⊢
      have hread := readString_stringText s rest
      obtain ⟨fuel, rfl⟩ := exists_step (List.cons_ne_nil _ _) hfuel
      rw [stringText, List.cons_append, List.cons_append] at hread ⊢
      rw [readValue, skipSpace_of_not rfl]
      simp only [hread, Option.map_some]
      rfl
  | @int levels n lower upper =>
      -- A number is the only value that the text after it can run into.
      intro layout fuel rest hfuel hrest
      rw [chars, Number.text] at hfuel ⊢
      have hread := read_intText lower upper hrest
      obtain ⟨c, text, htext, hc⟩ := exists_intText n
      rw [htext] at hfuel hread ⊢
      obtain ⟨fuel, rfl⟩ := exists_step (List.cons_ne_nil _ _) hfuel
      rw [List.cons_append] at hread ⊢
      rw [readValue_of_startsNumeral hc, hread]
      rfl
  | @arr levels items items_fit ih =>
      intro layout
      cases items with
      | nil =>
          intro fuel rest hfuel _
          rw [chars] at hfuel ⊢
          obtain ⟨fuel, rfl⟩ := exists_step (List.cons_ne_nil _ _) hfuel
          rfl
      | cons first items =>
          exact .arr (items_fit first List.mem_cons_self) fun v hv => ih v hv layout.inner
  | @obj levels members members_fit ih =>
      intro layout
      cases members with
      | nil =>
          intro fuel rest hfuel _
          rw [chars] at hfuel ⊢
          obtain ⟨fuel, rfl⟩ := exists_step (List.cons_ne_nil _ _) hfuel
          rfl
      | cons first members => exact .obj fun m hm => ih m hm layout.inner

/-- **A value that was printed is read back as its canonical form.** -/
theorem read?_chars {value : Json} (h : Fits maxLevels value) (layout : Layout) :
    read? (String.ofList (value.chars layout)) = some value.canonical := by
  have hends : EndsNumeral [] := fun c hc => absurd hc (Option.not_mem_none c)
  have hread := h.readBack layout (readingSteps (value.chars layout)) []
    (Nat.le_add_right _ 2) hends
  rw [List.append_nil] at hread
  rw [read?, String.toList_ofList, readChars?, readPart, hread]
  rfl

/-- A value is read back from one line. -/
theorem read?_compact {value : Json} (h : Fits maxLevels value) :
    read? value.compact = some value.canonical :=
  read?_chars h .compact

/-- A value is read back from many lines. -/
theorem read?_pretty {value : Json} (h : Fits maxLevels value) :
    read? value.pretty = some value.canonical :=
  read?_chars h (.pretty 0)

end StoreTasks.Json
