import Colloquy.Proofs.Json.Admitted
import Colloquy.Proofs.Session.Moves
import Colloquy.Proofs.Value.RoundTrip

/-!
# Sessions are restored as a whole

`Store.HeldBy` says that data holds the variables of a store: every entry of its object of
variables stands for one of them, in order. A session is restored from data exactly if it holds a
store, and then it has the variables of this store and is at its first node (`restore_eq_ok_iff`).
Otherwise the check of the schema finds a violation, or one of the entries stands for no value
(`restore_eq_error_iff`), and nothing of the session has changed (`restored_or_untouched`).

The stored form of a session holds its own store, so every session can be restored from what has
been stored of any other (`restored_as_stored`).
-/

namespace Colloquy

/-! ## Stored sessions -/

/-- The values under the names of an object of variables name a kind and give a payload. -/
def Json.HasVariables (data : Json) (entries : List (String × Json)) : Prop :=
  data.get? "variables" = some (.object entries) ∧
    ∀ entry ∈ entries, ∃ kind payload, Value.Tagged entry.2 kind payload

theorem Value.Kind.exists_of_mem_names {name : String} (h : name ∈ Kind.all.map Kind.name) :
    ∃ kind : Kind, name = kind.name := by
  obtain ⟨kind, -, rfl⟩ := List.mem_map.1 h
  exact ⟨kind, rfl⟩

theorem Value.Kind.name_mem_names (kind : Kind) : kind.name ∈ Kind.all.map Kind.name := by
  cases kind <;> decide

/-- The schema of a variable admits the data that names a kind and gives a payload. -/
theorem admits_variable_iff {data : Json} :
    (Json.Schema.object ["type", "value"] false
        [("type", .oneOf (Value.Kind.all.map Value.Kind.name))]).Admits data ↔
      ∃ kind payload, Value.Tagged data kind payload := by
  simp only [Json.Schema.Admits, Json.Schema.AdmitsKnown, List.mem_cons, List.not_mem_nil, or_false,
    forall_eq_or_imp, forall_eq, and_true, Bool.false_eq_true, false_implies, true_and]
  constructor
  · rintro ⟨entries, rfl, ⟨htype, hvalue⟩, hkind⟩
    obtain ⟨name, hname⟩ := Entries.exists_find? htype
    obtain ⟨payload, hpayload⟩ := Entries.exists_find? hvalue
    obtain ⟨s, hs, rfl⟩ := hkind name hname
    obtain ⟨kind, rfl⟩ := Value.Kind.exists_of_mem_names hs
    exact ⟨kind, payload, hname, hpayload⟩
  · rintro ⟨kind, payload, htagged⟩
    cases data with
    | object entries =>
      have hkind : Entries.find? entries "type" = some (.text kind.name) := htagged.kind
      refine ⟨entries, rfl, ⟨Entries.mem_keys_of_find? hkind,
        Entries.mem_keys_of_find? htagged.payload⟩, fun value hvalue => ?_⟩
      obtain rfl : .text kind.name = value := Option.some.inj (hkind.symm.trans hvalue)
      exact ⟨kind.name, kind.name_mem_names, rfl⟩
    | _ => cases htagged.kind

/-- The schema of a session admits the data that has variables, and an integer as its version if
it has a version. -/
theorem admits_session_iff {data : Json} :
    sessionSchema.Admits data ↔
      (∃ entries, data.HasVariables entries) ∧
        ∀ version, data.get? "version" = some version → Json.Schema.integer.Admits version := by
  unfold sessionSchema
  rw [Json.Schema.Admits]
  simp only [Json.Schema.AdmitsKnown, List.mem_singleton, forall_eq, Bool.false_eq_true,
    false_implies, true_and, and_true]
  constructor
  · rintro ⟨top, rfl, hnames, hversion, hentries⟩
    obtain ⟨value, hvalue⟩ := Entries.exists_find? hnames
    have hadmits := hentries value hvalue
    rw [Json.Schema.Admits] at hadmits
    obtain ⟨entries, rfl, heach⟩ := hadmits
    exact ⟨⟨entries, hvalue, fun entry hentry => admits_variable_iff.1 (heach entry hentry)⟩,
      hversion⟩
  · rintro ⟨⟨entries, hvalue, heach⟩, hversion⟩
    cases data with
    | object top =>
      refine ⟨top, rfl, Entries.mem_keys_of_find? hvalue, hversion, fun value hfind => ?_⟩
      obtain rfl : .object entries = value := Option.some.inj (hvalue.symm.trans hfind)
      rw [Json.Schema.Admits]
      exact ⟨entries, rfl, fun entry hentry => admits_variable_iff.2 (heach entry hentry)⟩
    | _ => cases hvalue

/-- Data holds the variables of a store: its entries stand for values, and the store is what comes
of entering these. If the data has a version, this is an integer. -/
structure Store.HeldBy (data : Json) (palette : Value.Palette) (store : Store) : Prop where
  version : ∀ version, data.get? "version" = some version → Json.Schema.integer.Admits version
  decodes : ∃ entries values, data.get? "variables" = some (.object entries) ∧
    Store.Decodes palette entries values ∧ store = Ledger.empty.enter values

theorem Store.Decodes.exists_tagged {palette : Value.Palette} {entries : List (String × Json)}
    {values : Entries String Value} (h : Store.Decodes palette entries values)
    {entry : String × Json} (hentry : entry ∈ entries) :
    ∃ kind payload, Value.Tagged entry.2 kind payload := by
  induction h with
  | nil => cases hentry
  | cons hread _ ih =>
    rcases List.mem_cons.1 hentry with rfl | hentry
    · exact Value.tagged_of_ofJson hread.2
    · exact ih hentry

/-- Data that holds a store passes the check. -/
theorem Store.HeldBy.admits {data : Json} {palette : Value.Palette} {store : Store}
    (h : store.HeldBy data palette) : sessionSchema.Admits data := by
  obtain ⟨entries, values, hentries, hdecodes, -⟩ := h.decodes
  exact admits_session_iff.2 ⟨⟨entries, hentries, fun _ hentry => hdecodes.exists_tagged hentry⟩,
    h.version⟩

namespace Session

/-! ## Restoring -/

variable {session restored : Session} {data : Json} {palette : Value.Palette}
    {entries : List (String × Json)}

theorem variablesOf_of_violation {found : Json.Violation}
    (h : sessionSchema.check data = .error found) :
    variablesOf data palette = .error (.violation found) := by
  unfold variablesOf
  rw [h]

/-- The variables in data that passes the check are those of its entries. -/
theorem variablesOf_of_admits (hadmits : sessionSchema.Admits data)
    (hentries : data.get? "variables" = some (.object entries)) :
    variablesOf data palette =
      (Store.ofEntries entries palette).mapError SessionDefect.ofVariable := by
  unfold variablesOf
  rw [Json.Schema.check_eq_ok_iff.2 hadmits, hentries]

/-- A session is restored exactly from data that holds a store, with the variables of this store
and at its first node. -/
theorem restore_eq_ok_iff :
    session.restore data palette = .ok restored ↔
      ∃ store : Store, store.HeldBy data palette ∧ restored = rewound { session with store } := by
  unfold restore
  constructor
  · intro hrestore
    cases hcheck : sessionSchema.check data with
    | error found =>
      rw [variablesOf_of_violation hcheck] at hrestore
      cases hrestore
    | ok _ =>
      have hadmits := Json.Schema.check_eq_ok_iff.1 hcheck
      obtain ⟨⟨entries, hentries, -⟩, hversion⟩ := admits_session_iff.1 hadmits
      rw [variablesOf_of_admits hadmits hentries] at hrestore
      cases hstore : Store.ofEntries entries palette with
      | error defect =>
        rw [hstore] at hrestore
        cases hrestore
      | ok store =>
        rw [hstore] at hrestore
        cases hrestore
        obtain ⟨values, hdecodes, heq⟩ := Store.ofEntries_eq_ok_iff.1 hstore
        exact ⟨store, ⟨hversion, entries, values, hentries, hdecodes, heq⟩, rfl⟩
  · rintro ⟨store, hheld, rfl⟩
    obtain ⟨entries, values, hentries, hdecodes, heq⟩ := hheld.decodes
    rw [variablesOf_of_admits hheld.admits hentries,
      Store.ofEntries_eq_ok_iff.2 ⟨values, hdecodes, heq⟩]
    rfl

/-- Restoring fails exactly if the check finds a violation, or at the first entry that stands for no
value. -/
theorem restore_eq_error_iff {defect : SessionDefect} :
    session.restore data palette = .error defect ↔
      (∃ found, sessionSchema.check data = .error found ∧ defect = .violation found) ∨
        ∃ before name item after cause, sessionSchema.Admits data ∧
          data.get? "variables" = some (.object (before ++ (name, item) :: after)) ∧
          (∀ entry ∈ before, ∃ value, Value.ofJson entry.2 palette = .ok value) ∧
          Value.ofJson item palette = .error cause ∧ defect = .ofVariable cause := by
  unfold restore
  cases hcheck : sessionSchema.check data with
  | error found =>
    have hrefused : ¬ sessionSchema.Admits data := by
      intro hadmits
      rw [Json.Schema.check_eq_ok_iff.2 hadmits] at hcheck
      cases hcheck
    rw [variablesOf_of_violation hcheck]
    constructor
    · intro h
      cases h
      exact .inl ⟨found, rfl, rfl⟩
    · rintro (⟨_, hfound, rfl⟩ | ⟨_, _, _, _, _, hadmits, -⟩)
      · cases hfound
        rfl
      · exact absurd hadmits hrefused
  | ok _ =>
    have hadmits := Json.Schema.check_eq_ok_iff.1 hcheck
    obtain ⟨⟨entries, hentries, -⟩, -⟩ := admits_session_iff.1 hadmits
    rw [variablesOf_of_admits hadmits hentries]
    constructor
    · intro h
      cases hstore : Store.ofEntries entries palette with
      | ok store =>
        rw [hstore] at h
        cases h
      | error cause =>
        rw [hstore] at h
        cases h
        obtain ⟨before, name, item, after, rfl, hbefore, hitem⟩ :=
          Store.ofEntries_eq_error_iff.1 hstore
        exact .inr ⟨before, name, item, after, cause, hadmits, hentries, hbefore, hitem, rfl⟩
    · rintro (⟨_, hfound, -⟩ | ⟨before, name, item, after, cause, -, hsplit, hbefore, hitem, rfl⟩)
      · cases hfound
      · obtain rfl : entries = before ++ (name, item) :: after :=
          Json.object.inj (Option.some.inj (hentries.symm.trans hsplit))
        rw [Store.ofEntries_eq_error_iff.2 ⟨before, name, item, after, rfl, hbefore, hitem⟩]
        rfl

theorem idle_rewound (session : Session) : (rewound session).Idle :=
  ⟨rfl, rfl, rfl⟩

/-- The stored form of a session holds its store. -/
theorem heldBy_toJson (session : Session) (palette : Value.Palette) :
    session.store.HeldBy session.toJson palette where
  version version hversion := by
    obtain rfl : .int formatVersion = version := by
      simpa [toJson, Json.get?, Entries.find?] using hversion
    rw [Json.Schema.Admits]
    exact .inl ⟨_, rfl⟩
  decodes :=
    ⟨_, session.store.entries, by simp [toJson, Store.toJson, Json.get?, Entries.find?],
      Store.decodes_toJson palette session.store.entries, session.store.enter_entries.symm⟩

end Session

/-! ## From one session to another -/

/-- A store is read from its stored form. What is stored of any session passes the check, and any
other session can be restored from it: that session then has the same variables in the same order,
and is idle. The names of colours do not matter, for colours are stored in their parts. -/
theorem restored_as_stored :
    (∀ (store : Store) palette,
      ∃ entries, store.toJson = .object entries ∧ Store.ofEntries entries palette = .ok store) ∧
      ∀ (saved other : Session) palette,
        sessionSchema.check saved.toJson = .ok () ∧
          ∃ restored, other.restore saved.toJson palette = .ok restored ∧
            restored.store = saved.store ∧
            restored.Idle ∧ restored.staging = other.staging := by
  refine ⟨fun store palette => ⟨_, rfl, store.ofEntries_toJson palette⟩,
    fun saved other palette => ?_⟩
  have hheld := saved.heldBy_toJson palette
  refine ⟨Json.Schema.check_eq_ok_iff.2 hheld.admits,
    Session.rewound { other with store := saved.store }, ?_⟩
  exact ⟨Session.restore_eq_ok_iff.2 ⟨_, hheld, rfl⟩, rfl, Session.idle_rewound _, rfl⟩

/-! ## All or nothing -/

variable {σ ε : Type}

/-- If data holds a store, restoring succeeds with just the variables of this store, at the first
node, and changes nothing else. If it does not, restoring fails and changes nothing. -/
theorem restored_or_untouched (host : Host σ ε) (world : World σ) (data : Json)
    (palette : Value.Palette) :
    (∃ store : Store, store.HeldBy data palette ∧
        (Move.restore data palette).perform host world =
          (.ok (), World.setSession world
            { world.rest.session with store, index := 0, current := none, hasRun := false })) ∨
      (∀ store : Store, ¬ store.HeldBy data palette) ∧
        ∃ defect,
          (Move.restore data palette).perform host world = (.error (.defect defect), world) := by
  rw [Move.perform]
  cases hrestore : world.rest.session.restore data palette with
  | ok restored =>
    obtain ⟨store, hheld, rfl⟩ := Session.restore_eq_ok_iff.1 hrestore
    exact .inl ⟨store, hheld, rfl⟩
  | error defect =>
    refine .inr ⟨fun store hheld => ?_, defect, rfl⟩
    have hrestored : world.rest.session.restore data palette = .ok _ :=
      Session.restore_eq_ok_iff.2 ⟨store, hheld, rfl⟩
    rw [hrestore] at hrestored
    cases hrestored

end Colloquy
