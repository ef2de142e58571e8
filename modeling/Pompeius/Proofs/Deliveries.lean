import Mathlib.Tactic.Common
import Pompeius.Model.Firebase
import Pompeius.Proofs.Resends
import Pompeius.Proofs.WriteLedger

/-!
# A document written over and over

The SDK resends what it got no answer to, and the backend may have taken it, so
writes are applied twice and out of order. A write of the program overwrites
cells, a cell being a field of a document or whether the document exists, and
that makes up for it: `delivered_of_run` says that when every write has been
accepted the collection is the one that the writes make when each is applied
once, those of a user in the order in which the user made them.

All of this is about runs of the client, and under an assumption on the backend:
what a closed stream had sent and the backend had not taken it never takes later.
A write it took up afterwards could undo a newer one. `Model/Device.lean` has the
backend apply each `setData` once, and no theorem relates its runs to these.
-/

namespace Pompeius

open Lib Firestore Firestore.Client

/-- A field of a document, or its existence. -/
abbrev Cell := String × Option String

def Collection.cell (users : Collection) : Cell → Option String
  | (document, none) => (users document).map fun _ => ""
  | (document, some key) => (users document).bind (· key)

/-- What a write leaves in a cell, when it touches it. -/
def DocumentWrite.cell (w : DocumentWrite) : Cell → Option (Option String)
  | (document, none) => if document = w.document then some (some "") else none
  | (document, some key) =>
      if document = w.document then
        if w.merge then (w.data.lookup key).map some else some (w.data.lookup key)
      else none

theorem cell_apply (w : DocumentWrite) (users : Collection) (k : Cell) :
    (w.apply users).cell k = (w.cell k).getD (users.cell k) := by
  obtain ⟨document, key⟩ := k
  by_cases hdocument : document = w.document
  · subst hdocument
    cases key with
    | none => simp [Collection.cell, DocumentWrite.cell]
    | some key =>
        simp only [Collection.cell, DocumentWrite.cell, DocumentWrite.apply_self, if_true,
          Option.bind_some, DocumentWrite.result]
        cases w.merge with
        | false => exact Option.or_none
        | true =>
            show (w.data.lookup key).or (((users w.document).getD Doc.empty) key) =
              ((w.data.lookup key).map some).getD ((users w.document).bind (· key))
            cases w.data.lookup key with
            | some v => rfl
            | none => cases users w.document <;> rfl
  · cases key with
    | none => simp [Collection.cell, DocumentWrite.cell, DocumentWrite.apply_of_ne, hdocument]
    | some key => simp [Collection.cell, DocumentWrite.cell, DocumentWrite.apply_of_ne, hdocument]

theorem Collection.ext_cell {users users' : Collection} (h : ∀ k, users.cell k = users'.cell k) :
    users = users' := by
  funext document
  have hexists : (users document).map (fun _ => "") = (users' document).map fun _ => "" :=
    h (document, none)
  have hfields : ∀ key, (users document).bind (· key) = (users' document).bind (· key) :=
    fun key => h (document, some key)
  cases hold : users document with
  | none =>
      rw [hold] at hexists
      exact (Option.map_eq_none_iff.mp hexists.symm).symm
  | some d =>
      cases hnew : users' document with
      | none =>
          rw [hold, hnew] at hexists
          cases hexists
      | some d' =>
          rw [hold, hnew] at hfields
          exact congrArg some (funext hfields)

/-- The collection after a log of writes. -/
def replay (users : Collection) (log : List DocumentWrite) : Collection :=
  log.foldl (fun users w => w.apply users) users

theorem cell_replay (users : Collection) (log : List DocumentWrite) (k : Cell) :
    (replay users log).cell k = (lastWritten DocumentWrite.cell k log).getD (users.cell k) := by
  induction log generalizing users with
  | nil => rfl
  | cons w log ih =>
      show (replay (w.apply users) log).cell k = _
      rw [ih, lastWritten_cons, cell_apply]
      cases lastWritten DocumentWrite.cell k log <;> rfl

variable {U : Type} [DecidableEq U] {batches : List (MutationBatch U DocumentWrite)}
  {user : U} {log : List DocumentWrite} {c₀ c : Client U DocumentWrite}
  {evs : List (Event U DocumentWrite)}

/-- A cell no undecided or rejected write touches is as the accepted writes
leave it. Once there are no such writes, the collection is as if each write
had been applied once, those of a user in the order of their making. In these runs
the backend takes nothing from a stream that was closed. -/
theorem delivered_of_run (hbatches : batches.Pairwise fun a b => a.batchId < b.batchId)
    (h₀ : initialized batches user log = .ok c₀) (h : run next c₀ evs = some c)
    (users : Collection) :
    (∀ k, (∀ w ∈ c.unaccepted, w.cell k = none) →
      (replay users c.applied).cell k = (replay users (log ++ c.accepted)).cell k) ∧
    (c.batches = [] → pending c.currentUser c.tasks = [] → c.rejected = [] →
      ∃ order : List (U × DocumentWrite),
        replay users c.applied = replay users (log ++ order.map Prod.snd) ∧
        ∀ u, ofUser u order = ofUser u (rows batches) ++ ofUser u c.issued) := by
  have hshows := applied_of_run hbatches h₀ h DocumentWrite.cell
  have hcell : ∀ k, (∀ w ∈ c.unaccepted, w.cell k = none) →
      (replay users c.applied).cell k = (replay users (log ++ c.accepted)).cell k := by
    intro k hk
    rw [cell_replay, cell_replay]
    rcases hshows k with heq | ⟨w, hw, v, hv, -⟩
    · rw [heq]
    · cases (hk w hw).symm.trans hv
  refine ⟨hcell, fun hempty hpending hrejected => ?_⟩
  have hunaccepted : c.unaccepted = [] := by rw [unaccepted, hempty, hrejected]; rfl
  have haccepted : c.accepted = (c.resolved.map fun p => (p.1, p.2.1)).map Prod.snd := by
    have hall : ∀ p ∈ c.resolved, p.2.2 = true := by
      intro p hp
      have hnone := List.filterMap_eq_nil_iff.mp hrejected p hp
      cases hok : p.2.2 with
      | true => rfl
      | false =>
          rw [hok] at hnone
          cases hnone
    rw [List.map_map, accepted, ← List.filterMap_eq_map]
    refine List.filterMap_congr fun p hp => ?_
    rw [hall p hp]
    rfl
  refine ⟨c.resolved.map fun p => (p.1, p.2.1), ?_, fun u => ?_⟩
  · rw [← haccepted]
    refine Collection.ext_cell fun k => hcell k fun w hw => ?_
    rw [hunaccepted] at hw
    cases hw
  · have hwrites := (writes_of_run hbatches h₀ h u).1
    rw [hempty, hpending] at hwrites
    rw [hwrites, ofUser_map]
    exact ((List.append_nil _).trans (List.append_nil _)).symm

/-- Two writes are taken, the stream breaks before an answer is read, and both
are taken again. -/
theorem delivered_of_run_twice :
    ∃ c : Client String DocumentWrite,
      run next (launched [] "u1" [])
        [.write ⟨"d", [("height", "6'")], true⟩, .write ⟨"d", [("height", "5'")], true⟩, .work, .work,
          .token 0 none, .work, .take, .read, .take, .take, .finish (some .unavailable),
          .backoffElapsed, .token 0 none, .work, .take, .read, .take, .read, .take, .read] = some c ∧
        c.applied.length = 4 ∧
        ∀ users, ∃ order : List (String × DocumentWrite),
          replay users c.applied = replay users ([] ++ order.map Prod.snd) ∧
            ∀ u, ofUser u order = ofUser u (rows []) ++ ofUser u c.issued := by
  have hview : (run next (launched [] "u1" [] : Client String DocumentWrite)
      [.write ⟨"d", [("height", "6'")], true⟩, .write ⟨"d", [("height", "5'")], true⟩, .work, .work,
        .token 0 none, .work, .take, .read, .take, .take, .finish (some .unavailable),
        .backoffElapsed, .token 0 none, .work, .take, .read, .take, .read, .take, .read]).map
          (fun c => (c.applied.length, c.batches, pending c.currentUser c.tasks, c.rejected)) =
            some (4, [], [], []) := rfl
  have h₀ : initialized [] "u1" [] =
      .ok (launched [] "u1" [] : Client String DocumentWrite) := rfl
  obtain ⟨c, hrun, hc⟩ := Option.map_eq_some_iff.mp hview
  obtain ⟨hlength, hrest⟩ := Prod.mk.inj hc
  obtain ⟨hbatches, hrest⟩ := Prod.mk.inj hrest
  obtain ⟨hpending, hrejected⟩ := Prod.mk.inj hrest
  exact ⟨c, hrun, hlength, fun users =>
    (delivered_of_run .nil h₀ hrun users).2 hbatches hpending hrejected⟩

end Pompeius
