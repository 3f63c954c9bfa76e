import Colloquy.Proofs.Json.Written

/-!
# Written values are read back

Whatever value is written, reading the text gives the same value again, as long as the value has
no floating-point numbers, keeps the names in its objects apart and stays within the limits of the
reader.

The statements about nested values speak of any text in which the written value is followed by
something that does not go on with it. The bounds of the reader on the number of its calls
suffice, since two calls in a row read at least one character.
-/

namespace Colloquy.Json

/-- The items of an array as they are written, without the brackets. -/
def writeRow (depth : Nat) : List Json → List Char
  | [] => []
  | item :: items => writeAt depth item ++ writeItems depth items

/-- The entries of an object as they are written, without the braces. -/
def writeEntryRow (depth : Nat) : List (String × Json) → List Char
  | [] => []
  | (name, value) :: entries =>
    writeText name ++ ':' :: ' ' :: writeAt depth value ++ writeEntries depth entries

/-! ## Space -/

theorem skipSpace_of_not_isSpace {c : Char} (hc : isSpace c = false) (cs : List Char) :
    skipSpace (c :: cs) = c :: cs := by
  simp [skipSpace, hc]

theorem skipSpace_newLine (depth : Nat) (cs : List Char) :
    skipSpace (newLine depth ++ cs) = skipSpace cs := by
  have hspaces : ∀ c ∈ newLine depth, isSpace c := by
    intro c hc
    rcases List.mem_cons.mp hc with rfl | hc
    · rfl
    · rw [List.eq_of_mem_replicate hc]
      rfl
  rw [skipSpace, List.dropWhile_append_of_pos hspaces]
  rfl

theorem skipSpace_writeAt {levels : Nat} {data : Json} (hfits : Fits levels data) (depth : Nat)
    (rest : List Char) : skipSpace (writeAt depth data ++ rest) = writeAt depth data ++ rest := by
  obtain ⟨c, cs, hhead, hspace, -⟩ := writeAt_head hfits depth
  rw [hhead, List.cons_append, skipSpace_of_not_isSpace hspace]

/-! ## One call of the reader -/

section Calls

variable {fuel levels : Nat} {cs more rest : List Char} {c : Char}

theorem readValue_text (fuel levels : Nat) (cs : List Char) :
    readValue (fuel + 1) levels ('"' :: cs) = (readText cs).map fun (s, rest) =>
      (.text s, rest) := by
  rw [readValue]

theorem readValue_array (hcs : skipSpace cs = c :: more) (hc : c ≠ ']') :
    readValue (fuel + 1) (levels + 1) ('[' :: cs) =
      (readItems fuel levels [] (c :: more)).map fun (items, rest) => (.array items, rest) := by
  rw [readValue, hcs]
  split
  · next h => exact absurd (List.cons.inj h).1 hc
  · rfl

theorem readValue_object (hcs : skipSpace cs = c :: more) (hc : c ≠ '\x7d') :
    readValue (fuel + 1) (levels + 1) ('\x7b' :: cs) =
      (readEntries fuel levels [] (c :: more)).map fun (entries, rest) =>
        (.object entries, rest) := by
  rw [readValue, hcs]
  split
  · next h => exact absurd (List.cons.inj h).1 hc
  · rfl

/-- A value that is no text, has no bracket and starts with no word is a number. -/
theorem readValue_number (hquote : c ≠ '"') (hbracket : c ≠ '[') (hbrace : c ≠ '\x7b')
    (hword : readWord? (c :: cs) = none) :
    readValue (fuel + 1) levels (c :: cs) = readNumber (c :: cs) := by
  simp [readValue, hquote, hbracket, hbrace, hword]

theorem readWord?_of_isNumeral (hc : isNumeral c) : readWord? (c :: cs) = none := by
  simp [readWord?, wordValues, ne_of_isNumeral hc (d := 'n') rfl, ne_of_isNumeral hc (d := 't') rfl,
    ne_of_isNumeral hc (d := 'f') rfl, ne_of_isNumeral hc (d := 'N') rfl,
    ne_of_isNumeral hc (d := 'I') rfl, ne_of_isNumeral hc (d := '-') rfl]

theorem readWord?_of_minus (hc : isNumeral c) : readWord? ('-' :: c :: cs) = none := by
  simp [readWord?, wordValues, ne_of_isNumeral hc (d := 'I') rfl]

theorem readValue_intText (i : Int)
    (hlength : (Decimal.natText i.natAbs).length ≤ Decimal.maxDigits) (hrest : Ends rest) :
    readValue (fuel + 1) levels ((Decimal.intText i).toList ++ rest) = .ok (.int i, rest) := by
  have hnumber := readNumber_intText i hlength hrest
  obtain ⟨c, cs, hc, htext | htext⟩ := intText_head i
  · rw [htext, List.cons_append] at hnumber ⊢
    rw [readValue_number (ne_of_isNumeral hc rfl).symm (ne_of_isNumeral hc rfl).symm
      (ne_of_isNumeral hc rfl).symm (readWord?_of_isNumeral hc)]
    exact hnumber
  · rw [htext, List.cons_append, List.cons_append] at hnumber ⊢
    rw [readValue_number (by decide) (by decide) (by decide) (readWord?_of_minus hc)]
    exact hnumber

/-- The last item of an array. -/
theorem readItems_last {item : Json} {done : List Json}
    (hitem : readValue fuel levels cs = .ok (item, rest)) (hrest : skipSpace rest = ']' :: more) :
    readItems (fuel + 1) levels done cs = .ok ((item :: done).reverse, more) := by
  simp only [readItems, hitem, hrest]

/-- An item of an array with another one after it. -/
theorem readItems_next {item : Json} {done : List Json}
    (hitem : readValue fuel levels cs = .ok (item, rest)) (hrest : skipSpace rest = ',' :: more) :
    readItems (fuel + 1) levels done cs =
      readItems fuel levels (item :: done) (skipSpace more) := by
  simp only [readItems, hitem, hrest]

/-- The last entry of an object. -/
theorem readEntries_last {name : String} {value : Json} {done : List (String × Json)}
    (hvalue : readValue fuel levels (skipSpace cs) = .ok (value, rest))
    (hrest : skipSpace rest = '\x7d' :: more) (hnew : name ∉ Entries.keys done) :
    readEntries (fuel + 1) levels done (writeText name ++ ':' :: cs) =
      .ok (done ++ [(name, value)], more) := by
  rw [writeText]
  simp only [List.cons_append, List.append_assoc, List.nil_append, readEntries, readText_written,
    skipSpace_of_not_isSpace (c := ':') rfl, hvalue, hrest, Entries.put_of_not_mem hnew]

/-- An entry of an object with another one after it. -/
theorem readEntries_next {name : String} {value : Json} {done : List (String × Json)}
    (hvalue : readValue fuel levels (skipSpace cs) = .ok (value, rest))
    (hrest : skipSpace rest = ',' :: more) (hnew : name ∉ Entries.keys done) :
    readEntries (fuel + 1) levels done (writeText name ++ ':' :: cs) =
      readEntries fuel levels (done ++ [(name, value)]) (skipSpace more) := by
  rw [writeText]
  simp only [List.cons_append, List.append_assoc, List.nil_append, readEntries, readText_written,
    skipSpace_of_not_isSpace (c := ':') rfl, hvalue, hrest, Entries.put_of_not_mem hnew]

end Calls

/-! ## Nested values -/

theorem writeItems_cons (depth : Nat) (item : Json) (items : List Json) :
    writeItems depth (item :: items) = ',' :: newLine depth ++ writeRow depth (item :: items) := by
  rw [writeItems, writeRow]
  simp

theorem writeEntries_cons (depth : Nat) (entry : String × Json) (entries : List (String × Json)) :
    writeEntries depth (entry :: entries) =
      ',' :: newLine depth ++ writeEntryRow depth (entry :: entries) := by
  rw [writeEntries, writeEntryRow]
  simp

theorem length_newLine (depth : Nat) : 0 < (newLine depth).length := by
  simp [newLine]

/-- Fuel for a written value is enough for one call at least. -/
theorem exists_succ_of_fuel {data : Json} {depth fuel levels : Nat} (hfits : Fits levels data)
    (hfuel : 2 * (writeAt depth data).length ≤ fuel) : ∃ calls, fuel = calls + 1 := by
  obtain ⟨c, cs, hhead, -⟩ := writeAt_head hfits depth
  rw [hhead, List.length_cons] at hfuel
  exact ⟨fuel - 1, by omega⟩

-- The recursion follows the value that is written. A row of items needs one call more than twice
-- its length, for the call that comes before the first item.
mutual

/-- A written value is read back, whatever follows it. -/
theorem readValue_writeAt : ∀ (data : Json) (depth fuel levels : Nat) (rest : List Char),
    Fits levels data → Ends rest → 2 * (writeAt depth data).length ≤ fuel →
      readValue fuel levels (writeAt depth data ++ rest) = .ok (data, rest)
  | .null, _, fuel, _, rest, hfits, _, hfuel => by
    obtain ⟨fuel, rfl⟩ := exists_succ_of_fuel hfits hfuel
    simp [writeAt, readValue, readWord?, wordValues]
  | .bool true, _, fuel, _, rest, hfits, _, hfuel => by
    obtain ⟨fuel, rfl⟩ := exists_succ_of_fuel hfits hfuel
    simp [writeAt, readValue, readWord?, wordValues]
  | .bool false, _, fuel, _, rest, hfits, _, hfuel => by
    obtain ⟨fuel, rfl⟩ := exists_succ_of_fuel hfits hfuel
    simp [writeAt, readValue, readWord?, wordValues]
  | .int i, _, fuel, levels, rest, hfits, hrest, hfuel => by
    obtain ⟨fuel, rfl⟩ := exists_succ_of_fuel hfits hfuel
    exact readValue_intText i (by simpa [Fits] using hfits) hrest
  | .float _, _, _, _, _, hfits, _, _ => by simp [Fits] at hfits
  | .text s, _, fuel, levels, rest, hfits, _, hfuel => by
    obtain ⟨fuel, rfl⟩ := exists_succ_of_fuel hfits hfuel
    have hread := readText_written s rest
    rw [writeAt, writeText]
    simp only [List.cons_append, List.append_assoc, List.nil_append]
    rw [readValue_text, hread]
    rfl
  | .array [], _, fuel, levels, rest, hfits, _, hfuel => by
    obtain ⟨fuel, rfl⟩ := exists_succ_of_fuel hfits hfuel
    cases levels with
    | zero => simp [Fits] at hfits
    | succ levels => simp [writeAt, readValue, skipSpace, isSpace]
  | .array (item :: items), depth, fuel, levels, rest, hfits, _, hfuel => by
    cases levels with
    | zero => simp [Fits] at hfits
    | succ levels =>
      obtain ⟨fuel, rfl⟩ := exists_succ_of_fuel hfits hfuel
      simp only [Fits] at hfits
      have hrow := length_newLine (depth + 1)
      simp only [writeAt, List.length_append, List.length_cons] at hfuel
      have hitems := readItems_written (item :: items) (depth + 1) depth fuel levels [] rest hfits
        (by simp) (by simp only [writeRow, List.length_append]; omega)
      obtain ⟨c, cs, hhead, hspace, hc, -⟩ := writeAt_head hfits.1 (depth + 1)
      rw [writeRow, hhead] at hitems
      rw [writeAt, hhead]
      simp only [List.append_assoc, List.cons_append, List.nil_append] at hitems ⊢
      rw [readValue_array (by rw [skipSpace_newLine, skipSpace_of_not_isSpace hspace]) hc, hitems]
      rfl
  | .object [], _, fuel, levels, rest, hfits, _, hfuel => by
    obtain ⟨fuel, rfl⟩ := exists_succ_of_fuel hfits hfuel
    cases levels with
    | zero => simp [Fits] at hfits
    | succ levels => simp [writeAt, readValue, skipSpace, isSpace]
  | .object ((name, value) :: entries), depth, fuel, levels, rest, hfits, _, hfuel => by
    cases levels with
    | zero => simp [Fits] at hfits
    | succ levels =>
      obtain ⟨fuel, rfl⟩ := exists_succ_of_fuel hfits hfuel
      simp only [Fits] at hfits
      have hrow := length_newLine (depth + 1)
      simp only [writeAt, List.length_append, List.length_cons] at hfuel
      have hentries :=
        readEntries_written ((name, value) :: entries) (depth + 1) depth fuel levels []
        rest hfits.2 (by simp) (by simpa using hfits.1)
        (by simp only [writeEntryRow, List.length_append, List.length_cons]; omega)
      rw [writeEntryRow, writeText] at hentries
      rw [writeAt, writeText]
      simp only [List.append_assoc, List.cons_append, List.nil_append] at hentries ⊢
      rw [readValue_object (by rw [skipSpace_newLine]; rfl) (by decide), hentries]
      rfl

/-- The written items of an array are read back up to the closing bracket. -/
theorem readItems_written : ∀ (items : List Json) (depth outer fuel levels : Nat) (done : List Json)
    (rest : List Char), FitsItems levels items → items ≠ [] →
      2 * (writeRow depth items).length + 1 ≤ fuel →
      readItems fuel levels done (writeRow depth items ++ (newLine outer ++ ']' :: rest)) =
        .ok (done.reverse ++ items, rest)
  | [], _, _, _, _, _, _, _, hne, _ => absurd rfl hne
  | item :: items, depth, outer, fuel, levels, done, rest, hfits, _, hfuel => by
    rw [writeRow, List.length_append] at hfuel
    obtain ⟨fuel, rfl⟩ : ∃ f, fuel = f + 1 := ⟨fuel - 1, by omega⟩
    have hmore := readItems_written items depth outer fuel levels (item :: done) rest hfits.2
    cases items with
    | nil =>
      have hitem := readValue_writeAt item depth fuel levels _ hfits.1
        (ends_newLine outer (']' :: rest)) (by omega)
      rw [writeRow, writeItems, List.append_nil,
        readItems_last hitem (skipSpace_newLine outer (']' :: rest)), List.reverse_cons]
    | cons next items =>
      rw [writeItems_cons] at hfuel
      simp only [List.cons_append, List.length_cons, List.length_append] at hfuel
      have hitem := readValue_writeAt item depth fuel levels _ hfits.1
        (ends_comma (newLine depth ++
          (writeRow depth (next :: items) ++ (newLine outer ++ ']' :: rest)))) (by omega)
      have hspace : skipSpace (writeRow depth (next :: items) ++ (newLine outer ++ ']' :: rest)) =
          writeRow depth (next :: items) ++ (newLine outer ++ ']' :: rest) := by
        rw [writeRow, List.append_assoc, skipSpace_writeAt hfits.2.1]
      have hnext := hmore (by simp) (by omega)
      rw [← hspace, ← skipSpace_newLine depth] at hnext
      rw [writeRow, writeItems_cons]
      simp only [List.cons_append, List.append_assoc]
      rw [readItems_next hitem (skipSpace_of_not_isSpace rfl _), hnext, List.reverse_cons,
        List.append_assoc]
      rfl

/-- The written entries of an object are read back up to the closing brace. -/
theorem readEntries_written : ∀ (entries : List (String × Json)) (depth outer fuel levels : Nat)
    (done : List (String × Json)) (rest : List Char), FitsEntries levels entries → entries ≠ [] →
      (Entries.keys (done ++ entries)).Nodup →
      2 * (writeEntryRow depth entries).length + 1 ≤ fuel →
      readEntries fuel levels done
          (writeEntryRow depth entries ++ (newLine outer ++ '\x7d' :: rest)) =
        .ok (done ++ entries, rest)
  | [], _, _, _, _, _, _, _, hne, _, _ => absurd rfl hne
  | (name, value) :: entries, depth, outer, fuel, levels, done, rest, hfits, _, hnames, hfuel => by
    rw [writeEntryRow] at hfuel
    simp only [List.length_append, List.length_cons] at hfuel
    obtain ⟨fuel, rfl⟩ : ∃ f, fuel = f + 1 := ⟨fuel - 1, by omega⟩
    have hnew : name ∉ Entries.keys done := by
      intro hmem
      rw [Entries.keys, List.map_append, List.nodup_append] at hnames
      exact hnames.2.2 name hmem name (by simp) rfl
    have hmore := readEntries_written entries depth outer fuel levels (done ++ [(name, value)]) rest
      hfits.2
    have hspace : ∀ more, skipSpace (' ' :: (writeAt depth value ++ more)) =
        writeAt depth value ++ more := fun more => skipSpace_writeAt hfits.1 depth more
    cases entries with
    | nil =>
      have hvalue := readValue_writeAt value depth fuel levels _ hfits.1
        (ends_newLine outer ('\x7d' :: rest)) (by omega)
      rw [← hspace] at hvalue
      rw [writeEntryRow, writeEntries, List.append_nil]
      simp only [List.cons_append, List.append_assoc]
      rw [readEntries_last hvalue (skipSpace_newLine outer ('\x7d' :: rest)) hnew]
    | cons next entries =>
      rw [writeEntries_cons] at hfuel
      simp only [List.cons_append, List.length_cons, List.length_append] at hfuel
      have hvalue := readValue_writeAt value depth fuel levels _ hfits.1
        (ends_comma (newLine depth ++
          (writeEntryRow depth (next :: entries) ++ (newLine outer ++ '\x7d' :: rest))))
        (by omega)
      rw [← hspace] at hvalue
      have hstart : skipSpace (writeEntryRow depth (next :: entries) ++
          (newLine outer ++ '\x7d' :: rest)) =
          writeEntryRow depth (next :: entries) ++ (newLine outer ++ '\x7d' :: rest) := rfl
      have hnext := hmore (by simp) (by simpa using hnames) (by omega)
      rw [← hstart, ← skipSpace_newLine depth] at hnext
      rw [writeEntryRow, writeEntries_cons]
      simp only [List.cons_append, List.append_assoc]
      rw [readEntries_next hvalue (skipSpace_of_not_isSpace rfl _) hnew, hnext, List.append_assoc]
      rfl

end

/-- A value that fits is read back from the text of a file. -/
theorem read_write {data : Json} (hfits : Fits maxDepth data) :
    read data.write.toList = .ok data := by
  have hvalue := readValue_writeAt data 0 (2 * (writeAt 0 data).length + 2) maxDepth [] hfits
    ends_nil (by omega)
  have hspace := skipSpace_writeAt hfits 0 []
  obtain ⟨c, cs, hhead, -, -, hmark⟩ := writeAt_head hfits 0
  rw [List.append_nil] at hvalue hspace
  rw [write, String.toList_ofList, read]
  · rw [hspace, hvalue]
    rfl
  · intro more hmore
    rw [hhead] at hmore
    exact hmark (List.cons.inj hmore).1

end Colloquy.Json
