import Colloquy.Proofs.Script.Quiet
import Colloquy.Proofs.Script.WellFormed

/-!
# Nothing of a script is lost in silence

A script that compiles without a warning can be read off its graph. Its commands, choices,
speakers, texts and tags stand in the nodes, each once and in the order of the lines.

The passages of such a script are all read in full. What is left is to put their parts together:
`flatMap_eq_of_append` does so for everything that can be collected from the lines of one passage
after the other.
-/

namespace Colloquy.Script

open Line (Kind)

/-- The graph holds all of a script. Of the lines that count, those of each kind make up one part
of the graph, in the same order and without repetition. -/
structure Lossless (settings : Settings) (text : String) (graph : Graph) : Prop where
  /-- Every line belongs to a passage, and every passage has a node. -/
  lines : (contents settings text).flatten = countedLines settings text
  nodes : graph.nodes.length = (contents settings text).length
  commands : graph.nodes.flatMap (·.commands) =
    (Passage.ofKind settings .command (countedLines settings text)).map commandOf
  /-- The choices are the pairs of a label and the target that follows it. -/
  choices : (graph.nodes.flatMap (·.choices)).map heldChoice =
    (pairs settings (countedLines settings text)).map fullChoice
  /-- Every row of a choice list stands in one pair. -/
  rows : Passage.ofKind settings .choice (countedLines settings text) =
    (pairs settings (countedLines settings text)).flatMap rowsOf
  speakers : ((graph.nodes.map (·.speaker)).filter (· ≠ "")).map some =
    (Passage.ofKind settings .speaker (countedLines settings text)).map Line.speaker?
  texts : " ".intercalate ((graph.nodes.map (·.text)).filter (· ≠ "")) =
    " ".intercalate ((Passage.ofKind settings .speech (countedLines settings text)).map fullText)
  /-- The nodes whose passages have a tag line have the tags that stand there. -/
  tags : (((contents settings text).zip graph.tags).filter fun entry =>
      (Passage.tag settings entry.1).isSome).map (fun entry => some entry.2) =
    (Passage.ofKind settings .tag (countedLines settings text)).map Line.tag?

section Collect

variable {settings : Settings} {closed : List Passage}

/-! ## Parts of consecutive passages -/

/-- What can be collected from one passage after the other can be collected from all of their
lines. -/
theorem flatMap_eq_of_append {α : Type} {f : Passage → List α} {g : List Line → List α}
    (hnil : g [] = []) (happend : ∀ p ∈ closed, ∀ q, g (p ++ q) = g p ++ g q)
    (hfg : ∀ p ∈ closed, f p = g p) : closed.flatMap f = g closed.flatten := by
  induction closed with
  | nil => simp [hnil]
  | cons p closed ih =>
    rw [List.flatMap_cons, List.flatten_cons, happend p (List.mem_cons_self ..),
      hfg p (List.mem_cons_self ..),
      ih (fun p hp => happend p (List.mem_cons_of_mem _ hp))
        (fun p hp => hfg p (List.mem_cons_of_mem _ hp))]

/-- What the lines of one kind say in one passage after the other is what all lines of that kind
say. -/
theorem flatMap_eq_map_ofKind {α : Type} {kind : Kind} {f : Passage → List α} {read : Line → α}
    (hread : ∀ p ∈ closed, f p = (Passage.ofKind settings kind p).map read) :
    closed.flatMap f = (Passage.ofKind settings kind closed.flatten).map read := by
  apply flatMap_eq_of_append (g := fun lines => (Passage.ofKind settings kind lines).map read)
  · rfl
  · intro p _ q
    rw [Passage.ofKind, List.filter_append, List.map_append]
    rfl
  · exact hread

/-- The lines before a passage do not matter to the label that is open in it, unless they leave
one. -/
theorem openLabel?_append {p : List Line} (hopen : openLabel? settings p = none) (q : List Line) :
    openLabel? settings (p ++ q) = openLabel? settings q := by
  induction q using List.reverseRecOn with
  | nil => rw [List.append_nil, hopen]; rfl
  | append_singleton q line ih =>
    rw [← List.append_assoc, openLabel?_append_singleton, openLabel?_append_singleton, ih]

/-- No pair reaches from one passage into the next, unless a label is left open. -/
theorem pairs_append {p : List Line} (hopen : openLabel? settings p = none) (q : List Line) :
    pairs settings (p ++ q) = pairs settings p ++ pairs settings q := by
  induction q using List.reverseRecOn with
  | nil => simp [pairs, neighbours]
  | append_singleton q line ih =>
    rw [← List.append_assoc, pairs_append_singleton, pairs_append_singleton, ih,
      openLabel?_append hopen, List.append_assoc]

/-! ## Joined texts -/

theorem intercalate_ne_empty {texts : List String} (hne : texts ≠ [])
    (htexts : ∀ s ∈ texts, s ≠ "") : " ".intercalate texts ≠ "" := by
  cases texts with
  | nil => exact absurd rfl hne
  | cons s texts =>
    have hs : s ≠ "" := htexts s (List.mem_cons_self ..)
    cases texts with
    | nil => rwa [String.intercalate_singleton]
    | cons t texts =>
      rw [String.intercalate_cons_of_ne_nil (by simp)]
      intro h
      have hchars := congrArg String.toList h
      simp at hchars

/-- Joining the joined texts that are not empty joins all texts. -/
theorem intercalate_flatten {parts : List (List String)}
    (hparts : ∀ texts ∈ parts, ∀ s ∈ texts, s ≠ "") :
    " ".intercalate ((parts.map (" ".intercalate ·)).filter (· ≠ "")) =
      " ".intercalate parts.flatten := by
  induction parts with
  | nil => rfl
  | cons texts parts ih =>
    have hrest := ih fun t ht => hparts t (List.mem_cons_of_mem _ ht)
    by_cases hempty : texts = []
    · rw [hempty, List.map_cons, List.flatten_cons, List.nil_append, ← hrest]
      rfl
    · have hne := intercalate_ne_empty hempty (hparts texts (List.mem_cons_self ..))
      rw [List.map_cons, List.filter_cons_of_pos (by simpa using hne), List.flatten_cons]
      by_cases hlast : parts.flatten = []
      · have hnone : (parts.map (" ".intercalate ·)).filter (· ≠ "") = [] := by
          rw [List.filter_eq_nil_iff]
          intro joined hjoined
          obtain ⟨t, ht, rfl⟩ := List.mem_map.mp hjoined
          rw [List.flatten_eq_nil_iff.mp hlast t ht]
          simp
        rw [hnone, hlast, List.append_nil, String.intercalate_singleton]
      · have hsome : (parts.map (" ".intercalate ·)).filter (· ≠ "") ≠ [] := by
          intro hnone
          apply hlast
          rw [List.flatten_eq_nil_iff]
          intro t ht
          by_contra htne
          have hjoined := List.filter_eq_nil_iff.mp hnone _ (List.mem_map_of_mem ht)
          have := intercalate_ne_empty htne (hparts t (List.mem_cons_of_mem _ ht))
          simp [this] at hjoined
        rw [String.intercalate_cons_of_ne_nil hsome, hrest,
          String.intercalate_append_of_ne_nil hempty hlast]

/-! ## Parts of nodes -/

/-- The speakers that are named, as the nodes hold them. -/
theorem filter_map_getD {owns : List (Option String)} (howns : ∀ own ∈ owns, ∀ s ∈ own, s ≠ "") :
    ((owns.map (·.getD "")).filter (· ≠ "")).map some =
      owns.flatMap fun own => (own.map some).toList := by
  induction owns with
  | nil => rfl
  | cons own owns ih =>
    have hrest := ih fun o ho => howns o (List.mem_cons_of_mem _ ho)
    rw [List.flatMap_cons, ← hrest]
    cases own with
    | none => simp
    | some s =>
      have hs : s ≠ "" := howns (some s) (List.mem_cons_self ..) s rfl
      simp [hs]

/-- The tags that nodes have because their passages ask for them. -/
theorem map_filter_zip {entries : List (Passage × String)}
    (hkept : ∀ entry ∈ entries, ∀ own ∈ Passage.tag settings entry.1, entry.2 = own) :
    (entries.filter fun entry => (Passage.tag settings entry.1).isSome).map (some ·.2) =
      (entries.map (·.1)).flatMap fun p => ((Passage.tag settings p).map some).toList := by
  induction entries with
  | nil => rfl
  | cons entry entries ih =>
    have hrest := ih fun e he => hkept e (List.mem_cons_of_mem _ he)
    rw [List.map_cons, List.flatMap_cons, ← hrest]
    cases hown : Passage.tag settings entry.1 with
    | none => simp [hown]
    | some own =>
      have htag := hkept entry (List.mem_cons_self ..) own hown
      simp [hown, htag]

end Collect

/-! ## Graphs of settled passages -/

section Settled

variable {settings : Settings} {closed : List Passage}

theorem choices_flatten (hsettled : Settled settings closed) :
    (closed.flatMap (Passage.choices settings)).map heldChoice =
      (pairs settings closed.flatten).map fullChoice := by
  rw [List.map_flatMap]
  apply flatMap_eq_of_append (g := fun lines => (pairs settings lines).map fullChoice)
  · simp [pairs, neighbours]
  · intro p hp q
    rw [pairs_append (hsettled.ended p hp), List.map_append]
  · exact fun p hp => (hsettled.kept p hp).choices

theorem rows_flatten (hsettled : Settled settings closed) :
    Passage.ofKind settings .choice closed.flatten =
      (pairs settings closed.flatten).flatMap rowsOf := by
  have hleft : closed.flatMap (Passage.ofKind settings .choice) =
      Passage.ofKind settings .choice closed.flatten := by
    rw [Passage.ofKind, List.filter_flatten, List.flatMap_def]
    rfl
  rw [← hleft]
  apply flatMap_eq_of_append (g := fun lines => (pairs settings lines).flatMap rowsOf)
  · simp [pairs, neighbours]
  · intro p hp q
    rw [pairs_append (hsettled.ended p hp), List.flatMap_append]
  · intro p hp
    rw [(hsettled.kept p hp).rows, hsettled.ended p hp]
    simp

theorem map_nodesOf_of_fits {α : Type} {f : Node → α} {g : Passage → α}
    (hfits : closed.length ≤ settings.maxNodes.toNat)
    (hfg : ∀ passage tag, f (Passage.node settings passage tag) = g passage) :
    (nodesOf settings closed).map f = closed.map g := by
  rw [map_nodesOf hfg, List.take_of_length_le hfits]

theorem flatMap_nodesOf_of_fits {α : Type} {f : Node → List α} {g : Passage → List α}
    (hfits : closed.length ≤ settings.maxNodes.toNat)
    (hfg : ∀ passage tag, f (Passage.node settings passage tag) = g passage) :
    (nodesOf settings closed).flatMap f = closed.flatMap g := by
  rw [List.flatMap_def, map_nodesOf_of_fits hfits hfg, List.flatMap_def]

/-- The speech of passages that are read in full, joined in each and then in all of them. -/
theorem texts_flatten (hsettled : Settled settings closed)
    (hcounts : ∀ line ∈ closed.flatten, settings.counts line) :
    " ".intercalate (((nodesOf settings closed).map (·.text)).filter (· ≠ "")) =
      " ".intercalate ((Passage.ofKind settings .speech closed.flatten).map fullText) := by
  have hspeech : (closed.map (Passage.speech settings)).flatten =
      (Passage.ofKind settings .speech closed.flatten).map fullText := by
    rw [← List.flatMap_def]
    exact flatMap_eq_map_ofKind fun p hp => (hsettled.kept p hp).speech
  have hparts : ∀ texts ∈ closed.map (Passage.speech settings), ∀ s ∈ texts, s ≠ "" := by
    intro texts htexts s hs
    obtain ⟨p, hp, rfl⟩ := List.mem_map.mp htexts
    rw [(hsettled.kept p hp).speech] at hs
    obtain ⟨line, hline, rfl⟩ := List.mem_map.mp hs
    have hcount := hcounts line (List.mem_flatten_of_mem hp (mem_of_mem_ofKind hline))
    intro hempty
    exact trim_ne_nil_of_counts hcount (by simpa [fullText] using congrArg String.toList hempty)
  rw [map_nodesOf_of_fits hsettled.fits
    (g := fun p => " ".intercalate (Passage.speech settings p)) fun _ _ => rfl]
  have hjoin := intercalate_flatten hparts
  rw [List.map_map, hspeech] at hjoin
  exact hjoin

theorem speakers_flatten (hsettled : Settled settings closed)
    (hcounts : ∀ line ∈ closed.flatten, settings.counts line) :
    (((nodesOf settings closed).map (·.speaker)).filter (· ≠ "")).map some =
      (Passage.ofKind settings .speaker closed.flatten).map Line.speaker? := by
  have hnamed : ∀ own ∈ closed.map (Passage.speaker settings), ∀ s ∈ own, s ≠ "" := by
    intro own hown s hs
    obtain ⟨p, hp, rfl⟩ := List.mem_map.mp hown
    obtain ⟨line, hline, rfl⟩ := exists_of_mem_speaker s hs
    have hcount := hcounts line (List.mem_flatten_of_mem hp hline)
    exact (isPart_speakerName (trim_ne_nil_of_counts hcount)).ne_empty
  rw [map_nodesOf_of_fits hsettled.fits (g := fun p => (Passage.speaker settings p).getD "")
    fun _ _ => rfl]
  have hheld := filter_map_getD hnamed
  rw [List.map_map, List.flatMap_map] at hheld
  refine hheld.trans ?_
  exact flatMap_eq_map_ofKind fun p hp => (hsettled.kept p hp).speaker.symm

theorem tags_flatten (hsettled : Settled settings closed) :
    ((closed.zip ((nodesOf settings closed).map (·.tag))).filter fun entry =>
        (Passage.tag settings entry.1).isSome).map (fun entry => some entry.2) =
      (Passage.ofKind settings .tag closed.flatten).map Line.tag? := by
  rw [map_tag_nodesOf, ownTags_of_fits hsettled.fits, map_filter_zip hsettled.named,
    List.map_fst_zip (by simp)]
  exact flatMap_eq_map_ofKind fun p hp => (hsettled.kept p hp).tag.symm

end Settled

/-- A script that compiles without a warning loses, repeats and reorders nothing. -/
theorem compile_lossless (settings : Settings) (text : String)
    (hquiet : (compile settings text).warnings = []) :
    Lossless settings text (compile settings text).graph := by
  obtain ⟨hsettled, hlines⟩ := settled_contents hquiet
  have hnodes := nodes_compile settings text
  have hcounts : ∀ line ∈ (contents settings text).flatten, settings.counts line := by
    rw [hlines]
    exact fun line hline => counts_of_mem_countedLines hline
  constructor
  · exact hlines
  · rw [hnodes, length_nodesOf, ownTags_of_fits hsettled.fits, List.length_map]
  · rw [hnodes, ← hlines,
      flatMap_nodesOf_of_fits hsettled.fits (g := Passage.commands settings) fun _ _ => rfl]
    exact flatMap_eq_map_ofKind fun p hp => (hsettled.kept p hp).commands
  · rw [hnodes, ← hlines,
      flatMap_nodesOf_of_fits hsettled.fits (g := Passage.choices settings) fun _ _ => rfl]
    exact choices_flatten hsettled
  · rw [← hlines]
    exact rows_flatten hsettled
  · rw [hnodes, ← hlines]
    exact speakers_flatten hsettled hcounts
  · rw [hnodes, ← hlines]
    exact texts_flatten hsettled hcounts
  · rw [Graph.tags, hnodes, ← hlines]
    exact tags_flatten hsettled

/-- A script with two nodes, a command and a choice. -/
theorem lossless_of_two_nodes :
    let text := "[start]\nANNA:\nHello.\n@wave twice\n  Go on.\n  [next]\n[next]\nBEN:\nBye."
    (compile {} text).warnings = [] ∧ Lossless {} text (compile {} text).graph := by
  have hquiet : (compile {}
      "[start]\nANNA:\nHello.\n@wave twice\n  Go on.\n  [next]\n[next]\nBEN:\nBye.").warnings =
        [] := by
    decide +kernel
  exact ⟨hquiet, compile_lossless {} _ hquiet⟩

end Colloquy.Script
