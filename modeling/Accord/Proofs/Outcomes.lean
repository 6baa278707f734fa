import Accord.Proofs.Json.Reading
import Accord.Reply

/-! # Agreement on outcomes

Nodes compare digests where they mean outcomes. The text behind a digest keeps whether an operation
succeeded apart from what it gave, and the text of a value determines the value, so two outcomes
have one text only if they are the same. Digests then tell outcomes apart as far as no two texts
collide. -/
namespace Accord

/-- Outcomes that nodes take for the same: equal values, or failures with one message. -/
def SameOutcome : Except StoreError Json → Except StoreError Json → Prop
  | .ok v, .ok w => v = w
  | .error e, .error f => e.message = f.message
  | _, _ => False

/-- The text of an outcome determines the value, or the message of the failure. -/
theorem outcomeText_eq_iff (x y : Except StoreError Json) :
    outcomeText x = outcomeText y ↔ SameOutcome x y := by
  have hiff (v w : Json) (b c : Bool) :
      Json.text (.object [("data", v), ("success", .bool b)]) =
        Json.text (.object [("data", w), ("success", .bool c)]) ↔ v = w ∧ b = c := by
    constructor
    · intro h
      have hobject := Json.text_injective h
      simpa using hobject
    · intro h
      rw [h.1, h.2]
  cases x with
  | ok v =>
    cases y with
    | ok w => exact (hiff v w true true).trans (and_iff_left rfl)
    | error f => exact (hiff v (.string f.message) true false).trans (by simp [SameOutcome])
  | error e =>
    cases y with
    | ok w => exact (hiff (.string e.message) w false true).trans (by simp [SameOutcome])
    | error f =>
      exact (hiff (.string e.message) (.string f.message) false false).trans (by simp [SameOutcome])

/-- Texts of outcomes agree exactly where the outcomes do. So do the digests of outcomes, as far as
the digest has no collision among their texts. -/
theorem digests_agree_iff_outcomes_agree :
    (∀ x y, outcomeText x = outcomeText y ↔ SameOutcome x y) ∧
      ∀ outcomes : Set (Except StoreError Json),
        Set.InjOn Sha256.hexDigest (outcomeText '' outcomes) ↔
          ∀ x ∈ outcomes, ∀ y ∈ outcomes, (outcomeDigest x = outcomeDigest y ↔ SameOutcome x y) := by
  refine ⟨outcomeText_eq_iff, fun outcomes => ⟨fun hinj x hx y hy => ?_, fun hagree => ?_⟩⟩
  · rw [← outcomeText_eq_iff]
    exact hinj.eq_iff (Set.mem_image_of_mem _ hx) (Set.mem_image_of_mem _ hy)
  · intro s hs t ht hst
    obtain ⟨x, hx, rfl⟩ := hs
    obtain ⟨y, hy, rfl⟩ := ht
    exact (outcomeText_eq_iff x y).mpr ((hagree x hx y hy).mp hst)

/-- Two failures with one message, and a success with that message for its value. -/
def namesakes : Set (Except StoreError Json) :=
  {.error .unavailable, .error (.other "storage is unavailable"),
   .ok (.string "storage is unavailable")}

theorem namesakes_told_apart :
    Set.InjOn Sha256.hexDigest (outcomeText '' namesakes) ∧
      outcomeDigest (.error .unavailable) =
        outcomeDigest (.error (.other "storage is unavailable")) ∧
      outcomeDigest (.error .unavailable) ≠
        outcomeDigest (.ok (.string "storage is unavailable")) := by
  have hinj : Set.InjOn Sha256.hexDigest (outcomeText '' namesakes) := by
    have hsame : outcomeText (.error .unavailable) =
        outcomeText (.error (.other "storage is unavailable")) := rfl
    rw [namesakes, Set.image_insert_eq, Set.image_pair, hsame,
      Set.insert_eq_of_mem (Set.mem_insert _ _), Set.injOn_pair]
    intro hdigest
    exact absurd hdigest (by decide +kernel)
  have hagree := (digests_agree_iff_outcomes_agree.2 namesakes).mp hinj
  refine ⟨hinj, (hagree _ ?_ _ ?_).mpr rfl, fun hdigest => (hagree _ ?_ _ ?_).mp hdigest⟩
  all_goals simp [namesakes]

end Accord
