import Colloquy.Reference

/-!
# One pass over a text

A text can be cut at its references in one way only: into what stands before the first one, and
every name with what stands after it (`Cut`). `Cut.of` finds the cut from the end of the text on,
one character at a time (`Cut.source_of`, `Cut.fits_of`, `Cut.of_source`).

`names` and `resolveFrom` read a text from its start. Each of them is related to the cut by the
same three steps: what it makes of a plain stretch, of a name, and of the mentions in a row. So
they agree on what the references of a text are, and looking up happens once for every mention, in
the order of the text (`single_pass`).
-/

namespace Colloquy.Reference

/-! ## Cuts -/

/-- A text does not begin with a letter or digit. -/
def Halts (cs : List Char) : Prop :=
  ∀ c ∈ cs.head?, Chars.isAlnum c = false

/-- A text without references: no marker in it is directly followed by a letter or digit. -/
def Plain (cs : List Char) : Prop :=
  ∀ before c after, cs = before ++ marker :: c :: after → Chars.isAlnum c = false

/-- A reference, and what stands between it and the next one. -/
structure Mention where
  name : List Char
  after : List Char

namespace Mention

/-- A mention as it is written. -/
def source (mention : Mention) : List Char :=
  marker :: (mention.name ++ mention.after)

/-- A name has a letter or digit and nothing else. It ends where no other one follows, and no other
reference comes before the next mention. -/
structure Fits (mention : Mention) : Prop where
  nonempty : mention.name ≠ []
  alnum : ∀ c ∈ mention.name, Chars.isAlnum c = true
  halts : Halts mention.after
  plain : Plain mention.after

end Mention

/-- A text that is cut at its references. -/
structure Cut where
  /-- What stands before the first reference. -/
  head : List Char
  mentions : List Mention

namespace Cut

/-- The text as it is written. -/
def source (cut : Cut) : List Char :=
  cut.head ++ cut.mentions.flatMap Mention.source

/-- The cuts are at the references and nowhere else. -/
structure Fits (cut : Cut) : Prop where
  head : Plain cut.head
  mentions : ∀ mention ∈ cut.mentions, mention.Fits

/-- The names in order. -/
def names (cut : Cut) : List String :=
  cut.mentions.map fun mention => String.ofList mention.name

/-- The text with values in the place of the references. -/
def splice (cut : Cut) (values : List String) : String :=
  String.ofList (cut.head ++
    (List.zipWith (fun mention value => value.toList ++ mention.after) cut.mentions values).flatten)

/-- The text with what `lookup` gives for each name in its place. -/
def fill (cut : Cut) (lookup : String → String) : String :=
  String.ofList (cut.head ++ cut.mentions.flatMap fun mention =>
    (lookup (String.ofList mention.name)).toList ++ mention.after)

theorem splice_map (cut : Cut) (lookup : String → String) :
    cut.splice (cut.names.map lookup) = cut.fill lookup := by
  rw [splice, fill, names, List.map_map, List.zipWith_map_right, List.zipWith_self]
  rfl

end Cut

/-! ## Plain stretches -/

theorem isAlnum_marker : Chars.isAlnum marker = false := by
  decide

theorem Halts.nil : Halts [] := by
  intro c hc
  cases hc

theorem halts_cons {c : Char} {cs : List Char} : Halts (c :: cs) ↔ Chars.isAlnum c = false := by
  simp [Halts]

theorem Halts.append {cs rest : List Char} (h : Halts cs) (hrest : Halts rest) :
    Halts (cs ++ rest) := by
  cases cs with
  | nil => exact hrest
  | cons c cs => exact halts_cons.2 (halts_cons.1 h)

theorem halts_mentions (mentions : List Mention) : Halts (mentions.flatMap Mention.source) := by
  cases mentions with
  | nil => exact Halts.nil
  | cons mention mentions => exact halts_cons.2 isAlnum_marker

theorem Plain.nil : Plain [] := by
  intro before c after heq
  simp at heq

theorem plain_cons {c : Char} {cs : List Char} :
    Plain (c :: cs) ↔ (c = marker → Halts cs) ∧ Plain cs := by
  constructor
  · intro h
    refine ⟨fun hc d hd => ?_, fun before d after heq => ?_⟩
    · obtain ⟨rest, rfl⟩ := List.head?_eq_some_iff.1 hd
      exact h [] d rest (by rw [hc, List.nil_append])
    · exact h (c :: before) d after (by rw [heq, List.cons_append])
  · intro h before d after heq
    cases before with
    | nil =>
      obtain ⟨hc, rfl⟩ := List.cons.inj heq
      exact halts_cons.1 (h.1 hc)
    | cons b before => exact h.2 before d after (List.cons.inj heq).2

theorem plain_of_not_mem {cs : List Char} (h : marker ∉ cs) : Plain cs := by
  intro before c after heq
  exact (h (by simp [heq])).elim

/-! ## Finding the cut -/

namespace Cut

/-- The cut of a text with a character before it. A marker takes the letters and digits after it
as its name, if there are any. -/
def cons (c : Char) (cut : Cut) : Cut :=
  let name := cut.head.takeWhile Chars.isAlnum
  if c = marker ∧ name ≠ [] then ⟨[], ⟨name, cut.head.dropWhile Chars.isAlnum⟩ :: cut.mentions⟩
  else { cut with head := c :: cut.head }

/-- The cut of a text. -/
def of (cs : List Char) : Cut :=
  cs.foldr cons ⟨[], []⟩

theorem source_cons (c : Char) (cut : Cut) : (cut.cons c).source = c :: cut.source := by
  rw [cons]
  split
  · next hname =>
    rw [hname.1]
    simp [source, Mention.source]
  · rfl

theorem takeWhile_eq_nil_iff {cs : List Char} : cs.takeWhile Chars.isAlnum = [] ↔ Halts cs := by
  cases cs with
  | nil => exact iff_of_true rfl Halts.nil
  | cons c cs =>
    rw [halts_cons, List.takeWhile_cons]
    cases Chars.isAlnum c <;> simp

theorem halts_dropWhile (cs : List Char) : Halts (cs.dropWhile Chars.isAlnum) := by
  intro c hc
  have hfirst := List.head?_dropWhile_not Chars.isAlnum cs
  rw [Option.mem_def.1 hc] at hfirst
  simpa using hfirst

theorem plain_dropWhile {cs : List Char} (h : Plain cs) : Plain (cs.dropWhile Chars.isAlnum) := by
  intro before c after heq
  refine h (cs.takeWhile Chars.isAlnum ++ before) c after ?_
  rw [List.append_assoc, ← heq, List.takeWhile_append_dropWhile]

theorem Fits.cons {cut : Cut} (h : cut.Fits) (c : Char) : (cut.cons c).Fits := by
  rw [Cut.cons]
  split
  · next hname =>
    refine ⟨Plain.nil,
      List.forall_mem_cons.2 ⟨⟨hname.2, ?_, halts_dropWhile _, plain_dropWhile h.head⟩,
      h.mentions⟩⟩
    intro d hd
    exact List.all_eq_true.1 List.all_takeWhile d hd
  · next hname =>
    refine ⟨plain_cons.2 ⟨fun hc => ?_, h.head⟩, h.mentions⟩
    exact takeWhile_eq_nil_iff.1 (Classical.byContradiction fun hne => hname ⟨hc, hne⟩)

theorem source_of (cs : List Char) : (of cs).source = cs := by
  induction cs with
  | nil => rfl
  | cons c cs ih => rw [of, List.foldr_cons, source_cons, ← of, ih]

theorem fits_of (cs : List Char) : (of cs).Fits := by
  induction cs with
  | nil => exact ⟨Plain.nil, List.forall_mem_nil _⟩
  | cons c cs ih => exact ih.cons c

theorem foldr_plain {cs : List Char} (h : Plain cs) (mentions : List Mention) :
    cs.foldr cons ⟨[], mentions⟩ = ⟨cs, mentions⟩ := by
  induction cs with
  | nil => rfl
  | cons c cs ih =>
    obtain ⟨hmarker, hplain⟩ := plain_cons.1 h
    rw [List.foldr_cons, ih hplain, cons]
    exact if_neg fun hname => hname.2 (takeWhile_eq_nil_iff.2 (hmarker hname.1))

theorem foldr_name {name : List Char} (h : ∀ c ∈ name, Chars.isAlnum c = true) (cut : Cut) :
    name.foldr cons cut = { cut with head := name ++ cut.head } := by
  induction name with
  | nil => rfl
  | cons c name ih =>
    obtain ⟨halnum, hname⟩ := List.forall_mem_cons.1 h
    have hmarker : c ≠ marker := by
      rintro rfl
      rw [isAlnum_marker] at halnum
      cases halnum
    rw [List.foldr_cons, ih hname, cons]
    exact if_neg fun hname => hmarker hname.1

theorem cons_marker {mention : Mention} (h : mention.Fits) (mentions : List Mention) :
    cons marker ⟨mention.name ++ mention.after, mentions⟩ = ⟨[], mention :: mentions⟩ := by
  have htake : (mention.name ++ mention.after).takeWhile Chars.isAlnum = mention.name := by
    rw [List.takeWhile_append_of_pos h.alnum, takeWhile_eq_nil_iff.2 h.halts, List.append_nil]
  have hdrop : (mention.name ++ mention.after).dropWhile Chars.isAlnum = mention.after := by
    rw [List.dropWhile_append_of_pos h.alnum]
    have hsplit := List.takeWhile_append_dropWhile (p := Chars.isAlnum) (l := mention.after)
    rwa [takeWhile_eq_nil_iff.2 h.halts, List.nil_append] at hsplit
  rw [cons]
  dsimp only
  rw [htake, hdrop, if_pos ⟨rfl, h.nonempty⟩]

theorem of_mentions {mentions : List Mention} (h : ∀ mention ∈ mentions, mention.Fits) :
    of (mentions.flatMap Mention.source) = ⟨[], mentions⟩ := by
  induction mentions with
  | nil => rfl
  | cons mention mentions ih =>
    obtain ⟨hfits, hrest⟩ := List.forall_mem_cons.1 h
    rw [of] at ih ⊢
    rw [List.flatMap_cons, Mention.source, List.cons_append, List.foldr_cons, List.append_assoc,
      List.foldr_append, List.foldr_append, ih hrest, foldr_plain hfits.plain,
      foldr_name hfits.alnum]
    exact cons_marker hfits mentions

/-- A text has no other cut than this one. -/
theorem of_source {cut : Cut} (h : cut.Fits) : of cut.source = cut := by
  rw [of, source, List.foldr_append, ← of, of_mentions h.mentions, foldr_plain h.head]

end Cut

/-! ## Listing -/

theorem namesFrom_name {name rest : List Char} (hname : ∀ c ∈ name, Chars.isAlnum c = true)
    (hrest : Halts rest) (read : List Char) :
    namesFrom (some read) (name ++ rest) =
      nameRead (name.reverse ++ read) ++ namesFrom none rest := by
  induction name generalizing read with
  | nil =>
    cases rest with
    | nil => exact (List.append_nil _).symm
    | cons c rest =>
      simp [namesFrom, halts_cons.1 hrest]
  | cons c name ih =>
    obtain ⟨halnum, hname⟩ := List.forall_mem_cons.1 hname
    rw [List.cons_append, namesFrom, if_pos halnum, ih hname, List.reverse_cons, List.append_assoc,
      List.singleton_append]

theorem namesFrom_plain {cs rest : List Char} (hplain : Plain cs) (hrest : Halts rest) :
    namesFrom none (cs ++ rest) = namesFrom none rest := by
  induction cs with
  | nil => rfl
  | cons c cs ih =>
    obtain ⟨hmarker, hplain⟩ := plain_cons.1 hplain
    rw [List.cons_append, namesFrom]
    split
    · next hc =>
      have hhalts : Halts (cs ++ rest) := (hmarker (eq_of_beq hc)).append hrest
      exact (namesFrom_name (List.forall_mem_nil _) hhalts []).trans (ih hplain)
    · exact ih hplain

theorem namesFrom_mentions {mentions : List Mention} (h : ∀ mention ∈ mentions, mention.Fits) :
    namesFrom none (mentions.flatMap Mention.source) =
      mentions.map fun mention => String.ofList mention.name := by
  induction mentions with
  | nil => rfl
  | cons mention mentions ih =>
    obtain ⟨hfits, hrest⟩ := List.forall_mem_cons.1 h
    have hhalts : Halts (mention.after ++ mentions.flatMap Mention.source) :=
      hfits.halts.append (halts_mentions mentions)
    have hread : nameRead (mention.name.reverse ++ []) = [String.ofList mention.name] := by
      simp [nameRead, hfits.nonempty]
    rw [List.flatMap_cons, Mention.source, List.cons_append, List.append_assoc, namesFrom,
      if_pos (beq_self_eq_true marker), namesFrom_name hfits.alnum hhalts, hread,
      namesFrom_plain hfits.plain (halts_mentions mentions), ih hrest]
    rfl

/-- The names of a text are those of its cut. -/
theorem namesFrom_source {cut : Cut} (h : cut.Fits) : namesFrom none cut.source = cut.names := by
  rw [Cut.source, namesFrom_plain h.head (halts_mentions _),
    namesFrom_mentions h.mentions, Cut.names]

/-! ## Resolving -/

section Resolving

variable {m : Type → Type} [Monad m] [LawfulMonad m] {lookup : String → m String}

theorem resolveFrom_name {name rest : List Char} (hname : ∀ c ∈ name, Chars.isAlnum c = true)
    (hrest : Halts rest) (read : List Char) :
    resolveFrom lookup (some read) (name ++ rest) =
      shown lookup (name.reverse ++ read) >>= fun value =>
        (value ++ ·) <$> resolveFrom lookup none rest := by
  induction name generalizing read with
  | nil =>
    cases rest with
    | nil => simp [resolveFrom]
    | cons c rest =>
      simp only [resolveFrom, halts_cons.1 hrest, Bool.false_eq_true, if_false, List.reverse_nil,
        List.nil_append]
  | cons c name ih =>
    obtain ⟨halnum, hname⟩ := List.forall_mem_cons.1 hname
    rw [List.cons_append, resolveFrom, if_pos halnum, ih hname, List.reverse_cons,
      List.append_assoc, List.singleton_append]

theorem resolveFrom_plain {cs rest : List Char} (hplain : Plain cs) (hrest : Halts rest) :
    resolveFrom lookup none (cs ++ rest) = (cs ++ ·) <$> resolveFrom lookup none rest := by
  induction cs with
  | nil => exact (id_map' _).symm
  | cons c cs ih =>
    obtain ⟨hmarker, hplain⟩ := plain_cons.1 hplain
    rw [List.cons_append, resolveFrom]
    split
    · next hc =>
      have hhalts : Halts (cs ++ rest) := (hmarker (eq_of_beq hc)).append hrest
      have hlone : resolveFrom lookup (some []) (cs ++ rest) = shown lookup [] >>= fun value =>
          (value ++ ·) <$> resolveFrom lookup none (cs ++ rest) :=
        resolveFrom_name (List.forall_mem_nil _) hhalts []
      rw [hlone, ih hplain, eq_of_beq hc]
      simp [shown]
    · rw [ih hplain, Functor.map_map]
      rfl

theorem resolveFrom_mentions {mentions : List Mention} (h : ∀ mention ∈ mentions, mention.Fits) :
    resolveFrom lookup none (mentions.flatMap Mention.source) =
      (fun values => (List.zipWith (fun mention value => value.toList ++ mention.after) mentions
        values).flatten) <$>
          (mentions.map fun mention => String.ofList mention.name).mapM lookup := by
  induction mentions with
  | nil => simp [resolveFrom]
  | cons mention mentions ih =>
    obtain ⟨hfits, hrest⟩ := List.forall_mem_cons.1 h
    have hhalts : Halts (mention.after ++ mentions.flatMap Mention.source) :=
      hfits.halts.append (halts_mentions mentions)
    have hshown : shown lookup (mention.name.reverse ++ []) =
        String.toList <$> lookup (String.ofList mention.name) := by
      simp [shown, hfits.nonempty]
    rw [List.flatMap_cons, Mention.source, List.cons_append, List.append_assoc, resolveFrom,
      if_pos (beq_self_eq_true marker), resolveFrom_name hfits.alnum hhalts, hshown,
      resolveFrom_plain hfits.plain (halts_mentions mentions), ih hrest]
    simp

/-- A text is resolved by looking up the names of its cut, one after the other. -/
theorem resolveFrom_source {cut : Cut} (h : cut.Fits) :
    String.ofList <$> resolveFrom lookup none cut.source = cut.splice <$>
      cut.names.mapM lookup := by
  rw [Cut.source, resolveFrom_plain h.head (halts_mentions _), resolveFrom_mentions h.mentions,
    Functor.map_map, Functor.map_map]
  rfl

/-- Leaving a text without markers as it is makes no difference. -/
theorem resolveM_eq (lookup : String → m String) (text : String) :
    resolveM lookup text = String.ofList <$> resolveFrom lookup none text.toList := by
  rw [resolveM]
  split
  · rfl
  · next hmarker =>
    have hplain : Plain text.toList :=
      plain_of_not_mem fun hmem => hmarker (List.contains_iff_mem.2 hmem)
    rw [← List.append_nil text.toList, resolveFrom_plain hplain Halts.nil]
    simp [resolveFrom]

end Resolving

/-- What a text shows depends on `lookup` at its names only. -/
theorem Cut.fill_congr (cut : Cut) {lookup other : String → String}
    (h : ∀ name ∈ cut.names, lookup name = other name) : cut.fill lookup = cut.fill other := by
  rw [← splice_map, ← splice_map, List.map_congr_left h]

theorem Cut.fill_marked (cut : Cut) :
    cut.fill (fun name => String.singleton marker ++ name) = String.ofList cut.source := by
  have hmention :
      ∀ mention : Mention, (String.singleton marker ++ String.ofList mention.name).toList ++
      mention.after = mention.source := by
    intro mention
    simp [Mention.source]
  rw [fill, source]
  simp only [hmention]

/-- Every text has one cut at its references. Its names are listed, and resolving looks them up,
once for every mention and in the order of the text, and puts what comes of it in their place. So
what is shown depends on `lookup` at the names of the text only, and putting the references
themselves in their place gives the text back. -/
theorem single_pass (text : String) :
    ∃ cut : Cut, cut.Fits ∧ text = String.ofList cut.source ∧
      (∀ other : Cut, other.Fits → text = String.ofList other.source → other = cut) ∧
      names text = cut.names ∧
      (∀ {m : Type → Type} [Monad m] [LawfulMonad m] (lookup : String → m String),
        resolveM lookup text = cut.splice <$> cut.names.mapM lookup) ∧
      (∀ lookup, resolve lookup text = cut.fill lookup) ∧
      (∀ lookup other, (∀ name ∈ names text, lookup name = other name) →
        resolve lookup text = resolve other text) ∧
      resolve (fun name => String.singleton marker ++ name) text = text := by
  have hfits := Cut.fits_of text.toList
  have hsource := Cut.source_of text.toList
  have htext : text = String.ofList (Cut.of text.toList).source := by
    rw [hsource, String.ofList_toList]
  have hnames : names text = (Cut.of text.toList).names := by
    rw [names, ← namesFrom_source hfits, hsource]
  have hlookups : ∀ {m : Type → Type} [Monad m] [LawfulMonad m] (lookup : String → m String),
      resolveM lookup text = (Cut.of text.toList).splice <$>
        (Cut.of text.toList).names.mapM lookup := by
    intro m _ _ lookup
    rw [resolveM_eq, ← resolveFrom_source hfits, hsource]
  have hresolve : ∀ lookup, resolve lookup text = (Cut.of text.toList).fill lookup := by
    intro lookup
    rw [resolve, hlookups, List.mapM_pure, map_pure, Cut.splice_map]
    rfl
  refine ⟨Cut.of text.toList, hfits, htext, ?_, hnames, hlookups, hresolve, ?_, ?_⟩
  · intro other hother hsame
    rw [hsame, String.toList_ofList, Cut.of_source hother]
  · intro lookup other h
    rw [hnames] at h
    rw [hresolve, hresolve, Cut.fill_congr _ h]
  · rw [hresolve, Cut.fill_marked, ← htext]

/-- The lookup writes down what it is asked for and gives a value with a marker in it. -/
example :
    let lookup : String → StateM (List String) String := fun name => do
      modify (· ++ [name])
      return "$" ++ name ++ name
    Id.run ((resolveM lookup "$a+$b=$a$b, $$c 5$").run []) =
      ("$aa+$bb=$aa$bb, $$cc 5$", ["a", "b", "a", "b", "c"]) := by
  decide +kernel

end Colloquy.Reference
