import Colloquy.Proofs.Session.Restoring
import Colloquy.Proofs.Value.Oversized

/-!
# What goes wrong unreported when a session is restored

Data that is no stored session is reported as such, with a message of its own. A variable that is
oversized is the only one that is not: `Json.Overtaxes` says that such a variable comes before all
others that stand for no value, in data that passes the check. Then, and only then, restoring
fails with nothing but the misfit of this variable (`reported_iff_not_overtaxing`).
-/

namespace Colloquy

/-! ## Reports -/

/-- A defect that is reported as one of the stored session. -/
def SessionDefect.Reported : SessionDefect → Prop
  | .violation _ => True
  | .badVariable _ => True
  | .unreadable _ => False

/-- The defect of a variable is reported exactly if it is expected. -/
theorem SessionDefect.reported_ofVariable_iff {defect : Value.Defect} :
    (SessionDefect.ofVariable defect).Reported ↔ defect.Expected := by
  unfold SessionDefect.ofVariable Value.Defect.Expected
  cases defect.class <;> simp [Reported]

theorem SessionDefect.ofVariable_of_unexpected {defect : Value.Defect} (h : ¬ defect.Expected) :
    SessionDefect.ofVariable defect = .unreadable defect := by
  unfold Value.Defect.Expected at h
  unfold SessionDefect.ofVariable
  cases hclass : defect.class with
  | type => exact absurd (.inl hclass) h
  | content => exact absurd (.inr hclass) h
  | missing | range | belated => rfl

/-- Data passes the check, and the first of its variables that stands for no value is oversized. -/
def Json.Overtaxes (data : Json) (palette : Value.Palette) (misfit : Value.Misfit) : Prop :=
  sessionSchema.Admits data ∧ ∃ before name item after kind payload,
    data.get? "variables" = some (.object (before ++ (name, item) :: after)) ∧
      (∀ entry ∈ before, ∃ value, Value.ofJson entry.2 palette = .ok value) ∧
      Value.Tagged item kind payload ∧ Value.Oversized kind payload misfit

/-! ## Restoring -/

namespace Session

variable {session : Session} {data : Json} {palette : Value.Palette}

/-- Restoring fails without a report exactly if an oversized variable comes first. -/
theorem restore_unreported_iff {defect : SessionDefect} :
    (session.restore data palette = .error defect ∧ ¬ defect.Reported) ↔
      ∃ misfit, data.Overtaxes palette misfit ∧ defect = .unreadable (.misfit misfit) := by
  rw [restore_eq_error_iff]
  constructor
  · rintro ⟨⟨_, -, rfl⟩
      | ⟨before, name, item, after, cause, hadmits, hentries, hbefore, hitem, rfl⟩,
      hunreported⟩
    · exact absurd trivial hunreported
    · have hunexpected := SessionDefect.reported_ofVariable_iff.not.1 hunreported
      -- the check has made sure of a kind and a payload, so it is the payload that cannot be read
      obtain ⟨⟨entries, hheld, heach⟩, -⟩ := admits_session_iff.1 hadmits
      obtain rfl : entries = before ++ (name, item) :: after :=
        Json.object.inj (Option.some.inj (hheld.symm.trans hentries))
      obtain ⟨kind, payload, htagged⟩ :=
        heach (name, item) (List.mem_append_right _ (List.mem_cons_self ..))
      rw [Value.ofJson_tagged htagged] at hitem
      obtain ⟨misfit, hoversized, rfl⟩ := Value.readPayload_unexpected_iff.1 ⟨hitem, hunexpected⟩
      exact ⟨misfit, ⟨hadmits, before, name, item, after, kind, payload, hentries, hbefore, htagged,
        hoversized⟩, SessionDefect.ofVariable_of_unexpected hunexpected⟩
  · rintro ⟨misfit, ⟨hadmits, before, name, item, after, kind, payload, hentries, hbefore, htagged,
      hoversized⟩, rfl⟩
    obtain ⟨hread, hunexpected⟩ := Value.readPayload_unexpected_iff.2 ⟨misfit, hoversized, rfl⟩
    rw [← Value.ofJson_tagged htagged] at hread
    refine ⟨.inr ⟨before, name, item, after, _, hadmits, hentries, hbefore, hread, ?_⟩, id⟩
    exact (SessionDefect.ofVariable_of_unexpected hunexpected).symm

end Session

/-- Restoring succeeds or reports what is wrong with the data, unless an oversized variable comes
first. Then it fails with the misfit of this variable. -/
theorem reported_iff_not_overtaxing (session : Session) (data : Json) (palette : Value.Palette) :
    (((∃ restored, session.restore data palette = .ok restored) ∨
        ∃ defect, session.restore data palette = .error defect ∧ defect.Reported) ↔
      ∀ misfit, ¬ data.Overtaxes palette misfit) ∧
    ∀ misfit, data.Overtaxes palette misfit →
      session.restore data palette = .error (.unreadable (.misfit misfit)) := by
  have hfails : ∀ misfit, data.Overtaxes palette misfit →
      session.restore data palette = .error (.unreadable (.misfit misfit)) := by
    intro misfit hovertaxes
    exact (Session.restore_unreported_iff.2 ⟨misfit, hovertaxes, rfl⟩).1
  refine ⟨⟨?_, fun hnone => ?_⟩, hfails⟩
  · intro hreported misfit hovertaxes
    rw [hfails misfit hovertaxes] at hreported
    rcases hreported with ⟨_, hrestored⟩ | ⟨_, herror, hreported⟩
    · cases hrestored
    · cases herror
      exact hreported
  · cases hrestore : session.restore data palette with
    | ok restored => exact .inl ⟨restored, rfl⟩
    | error defect =>
      refine .inr ⟨defect, rfl, ?_⟩
      by_contra hunreported
      obtain ⟨misfit, hovertaxes, -⟩ := Session.restore_unreported_iff.1 ⟨hrestore, hunreported⟩
      exact hnone misfit hovertaxes

/-- A stored float that is an integer too large for one is not reported. -/
theorem not_reported_only :
    ¬ ∀ (session : Session) (data : Json) (palette : Value.Palette),
      (∃ restored, session.restore data palette = .ok restored) ∨
        ∃ defect, session.restore data palette = .error defect ∧ defect.Reported := by
  intro hreported
  let item : Json := .object [("type", .text "float"), ("value", .int (Binary.twoTo 1024))]
  let data : Json := .object [("variables", .object [("a", item)])]
  have htagged : Value.Tagged item .float (.int (Binary.twoTo 1024)) := Value.tagged_toJson .float _
  have hbeyond : Binary.Beyond (Binary.twoTo 1024) := by
    unfold Binary.Beyond
    omega
  have hadmits : sessionSchema.Admits data :=
    admits_session_iff.2
      ⟨⟨[("a", item)], rfl, by simpa using ⟨_, _, htagged⟩⟩, fun _ h => by cases h⟩
  have hovertaxes : data.Overtaxes .none .overflow :=
    ⟨hadmits, [], "a", item, [], .float, _, rfl, by simp, htagged, .float hbeyond⟩
  obtain ⟨hfails, hunreported⟩ :
      Session.restore {} data .none = .error (.unreadable (.misfit .overflow)) ∧ _ :=
    Session.restore_unreported_iff.2 ⟨.overflow, hovertaxes, rfl⟩
  rcases hreported {} data .none with ⟨_, hrestored⟩ | ⟨defect, herror, hdefect⟩
  · rw [hfails] at hrestored
    cases hrestored
  · rw [hfails] at herror
    cases herror
    exact hunreported hdefect

end Colloquy
