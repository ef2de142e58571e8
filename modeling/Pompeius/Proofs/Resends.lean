import Mathlib.Data.List.Nodup
import Pompeius.Lib.Overwrite
import Pompeius.Proofs.WriteSteps

/-!
# Sending a write again

When a stream breaks, the SDK does not know which of the writes it sent were
applied. It opens another one and sends the pipeline from its start, so the
backend applies some writes twice, and an older write after a newer one. The
writes of the program overwrite what they name, and that makes it harmless.

`Mirror` is the invariant. What the backend took on the open stream and the
client has not heard of is the end of the backend's log, in the order of the
pipeline, and the log shows the accepted writes, but for what a write that was
not accepted may have left.
-/

namespace Pompeius.Firestore.Client

open Lib

variable {U M : Type}

/-- The writes that were accepted, oldest first. -/
def accepted (c : Client U M) : List M :=
  c.resolved.filterMap fun p => if p.2.2 then some p.2.1 else none

def rejected (c : Client U M) : List M :=
  c.resolved.filterMap fun p => if p.2.2 then none else some p.2.1

/-- The writes the backend may have taken although they were not accepted. -/
def unaccepted (c : Client U M) : List M := c.batches.map (·.mutations) ++ c.rejected

/-- What the backend took on the open stream and the client has not heard of. -/
def unheard (c : Client U M) : List (MutationBatch U M) :=
  match c.grpcStream with
  | some g => if c.handshakeComplete then c.writePipeline.take g.unread else []
  | none => []

variable {κ ν : Type} {field : M → κ → Option ν} {log : List M} {c : Client U M}

structure Mirror (field : M → κ → Option ν) (log : List M) (c : Client U M) : Prop where
  tail : c.unheard.map (·.mutations) <:+ c.applied
  shows : Shows field (log ++ c.accepted) c.unaccepted c.applied

theorem unheard_of_none (h : c.grpcStream = none) : c.unheard = [] := by rw [unheard, h]

theorem unheard_of_ungreeted (h : c.handshakeComplete = false) : c.unheard = [] := by
  rw [unheard]
  cases c.grpcStream with
  | none => rfl
  | some g => exact if_neg (by simp [h])

theorem unheard_eq {user : U} {answered rest : List (MutationBatch U M)} {outbox : List (Message M)}
    (hhandshake : c.handshakeComplete = true) (hpipeline : c.writePipeline = answered ++ rest)
    (hstream : c.grpcStream = some ⟨user, outbox, answered.length⟩) : c.unheard = answered := by
  rw [unheard, hstream]
  show (if c.handshakeComplete = true then c.writePipeline.take answered.length else []) = answered
  rw [if_pos hhandshake, hpipeline, List.take_left]

theorem tail_of_eq {answered : List (MutationBatch U M)} (h : c.unheard = answered)
    (htail : answered.map (·.mutations) <:+ c.applied) :
    c.unheard.map (·.mutations) <:+ c.applied := by
  rw [h]
  exact htail

/-- A client without a stream has heard of everything it will. -/
theorem mirror_of_none (h : Mirror field log c) {c' : Client U M} (hstream : c'.grpcStream = none)
    (happlied : c'.applied = c.applied) (hresolved : c'.resolved = c.resolved)
    (hbatches : c'.batches = c.batches) : Mirror field log c' where
  tail := tail_of_eq (unheard_of_none hstream) List.nil_suffix
  shows := by
    rw [accepted, unaccepted, Client.rejected, hresolved, hbatches, happlied]
    exact h.shows

theorem mem_unaccepted {b : MutationBatch U M} (hb : b ∈ c.batches) : b.mutations ∈ c.unaccepted :=
  List.mem_append_left _ (List.mem_map.mpr ⟨b, hb, rfl⟩)

variable [DecidableEq U]

/-- Filling the pipeline is nothing to the backend. -/
theorem unheard_filled (h : Shape c) : c.filled.unheard = c.unheard := by
  have hstream : c.filled.grpcStream = if c.sending then c.grpcStream.map fun g =>
      { g with outbox := g.outbox ++ messages c.upcoming } else c.grpcStream := rfl
  cases h with
  | stopped _ _ hg =>
      have hg' : c.filled.grpcStream = none := by rw [hstream, hg]; exact ite_self none
      rw [unheard_of_none hg, unheard_of_none hg']
  | waiting _ _ hg =>
      have hg' : c.filled.grpcStream = none := by rw [hstream, hg]; exact ite_self none
      rw [unheard_of_none hg, unheard_of_none hg']
  | greeting _ hhandshake =>
      have hhandshake' : c.filled.handshakeComplete = false := hhandshake
      rw [unheard_of_ungreeted hhandshake, unheard_of_ungreeted hhandshake']
  | streaming answered rest hstate hhandshake _ hpipeline hg =>
      have hsending : c.sending = true := by simp [sending, isOpen, hstate, hhandshake]
      rw [hsending, if_pos rfl, hg] at hstream
      have hhandshake' : c.filled.handshakeComplete = true := hhandshake
      have hpipeline' : c.filled.writePipeline = answered ++ (rest ++ c.upcoming) := by
        show c.writePipeline ++ c.upcoming = _
        rw [hpipeline, List.append_assoc]
      rw [unheard_eq hhandshake hpipeline hg, unheard_eq hhandshake' hpipeline' hstream]

omit [DecidableEq U] in
/-- A batch is known by its id. -/
theorem eq_of_batchId (h : c.Ordered) {a b : MutationBatch U M} (ha : a ∈ c.batches)
    (hb : b ∈ c.batches) (hid : a.batchId = b.batchId) : a = b := by
  have hnodup : (c.batches.map (·.batchId)).Nodup :=
    List.pairwise_map.mpr (h.imp fun hlt => Nat.ne_of_lt hlt)
  exact List.inj_on_of_nodup_map hnodup ha hb hid

theorem mem_settled (h : c.Ordered) {a b : MutationBatch U M} (ha : a ∈ c.batches)
    (hb : b ∈ c.queue) (ok : Bool) : a = b ∨ a ∈ (c.settled b ok).batches := by
  cases hrow : c.isRow b.batchId a with
  | true =>
      simp only [isRow, decide_eq_true_eq] at hrow
      exact .inl (eq_of_batchId h ha (List.mem_filter.mp hb).1 hrow.2)
  | false => exact .inr (List.mem_filter.mpr ⟨ha, by simp [hrow]⟩)

theorem Mirror.filled (h : Mirror field log c) (hshape : Shape c) : Mirror field log c.filled where
  tail := by
    rw [unheard_filled hshape]
    exact h.tail
  shows := h.shows

/-- A rejected write may have left something all the same. -/
theorem shows_rejected (h : Shows field (log ++ c.accepted) c.unaccepted c.applied)
    (hc : c.Ordered) {b : MutationBatch U M} (hb : b ∈ c.queue) :
    Shows field (log ++ (c.settled b false).accepted) (c.settled b false).unaccepted c.applied := by
  have haccepted : (c.settled b false).accepted = c.accepted := by
    rw [accepted, settled, List.filterMap_append]
    exact List.append_nil _
  have hrejected : (c.settled b false).rejected = c.rejected ++ [b.mutations] := by
    rw [Client.rejected, settled, List.filterMap_append]
    rfl
  rw [haccepted]
  refine h.mono fun x hx => ?_
  rcases List.mem_append.mp hx with hrow | hold
  · obtain ⟨a, ha, rfl⟩ := List.mem_map.mp hrow
    rcases mem_settled hc ha hb false with rfl | hstill
    · rw [unaccepted, hrejected]
      exact List.mem_append_right _ (List.mem_append_right _ List.mem_cons_self)
    · exact mem_unaccepted hstill
  · rw [unaccepted, hrejected]
    exact List.mem_append_right _ (List.mem_append_left _ hold)

theorem rejected_accepted (c : Client U M) (b : MutationBatch U M) :
    (c.settled b true).rejected = c.rejected := by
  rw [Client.rejected, settled, List.filterMap_append]
  exact List.append_nil _

theorem shows_accepted (h : Shows field (log ++ c.accepted) c.unaccepted c.applied)
    (hc : c.Ordered) {b : MutationBatch U M} {answered more : List (MutationBatch U M)}
    (hqueue : c.queue = b :: (answered ++ more))
    (htail : (b :: answered).map (·.mutations) <:+ c.applied) :
    Shows field (log ++ (c.settled b true).accepted) (c.settled b true).unaccepted c.applied := by
  have hb : b ∈ c.queue := by
    rw [hqueue]
    exact List.mem_cons_self
  have haccepted : (c.settled b true).accepted = c.accepted ++ [b.mutations] := by
    rw [accepted, settled, List.filterMap_append]
    rfl
  obtain ⟨before, hbefore⟩ := htail
  rw [haccepted, ← List.append_assoc]
  refine h.accept hbefore.symm (fun x hx => ?_) fun x hx => ?_
  · obtain ⟨a, ha, rfl⟩ := List.mem_map.mp hx
    refine mem_unaccepted (List.mem_filter.mp (?_ : a ∈ (c.settled b true).queue)).1
    rw [queue_settled hc hqueue]
    exact List.mem_append_left _ ha
  · rcases List.mem_append.mp hx with hrow | hold
    · obtain ⟨a, ha, rfl⟩ := List.mem_map.mp hrow
      rcases mem_settled hc ha hb true with rfl | hstill
      · exact .inl rfl
      · exact .inr (mem_unaccepted hstill)
    · refine .inr ?_
      rw [unaccepted, rejected_accepted]
      exact List.mem_append_right _ hold

/-- The backend shows the accepted writes through every step. -/
theorem Mirror.step {e : Event U M} {c' : Client U M} (h : Mirror field log c) (hinv : c.Inv)
    (hs : Step c e c') : Mirror field log c' := by
  cases hs with
  | write m => exact ⟨h.tail, h.shows⟩
  | announce user => exact ⟨h.tail, h.shows⟩
  | setNetwork enabled => exact ⟨h.tail, h.shows⟩
  | token hrequest failure => exact ⟨h.tail, h.shows⟩
  | @stored m tasks htasks =>
      have hstored : Mirror field log ({ c with tasks }.stored m) := by
        refine ⟨h.tail, h.shows.mono fun x hx => ?_⟩
        rcases List.mem_append.mp hx with hrow | hold
        · obtain ⟨a, ha, rfl⟩ := List.mem_map.mp hrow
          exact mem_unaccepted (c := { c with tasks }.stored m) (List.mem_append_left _ ha)
        · exact List.mem_append_right _ hold
      exact hstored.filled (hinv.shape.congr rfl rfl rfl rfl rfl rfl)
  | @switched user tasks htasks hnetwork =>
      obtain ⟨hs, hi, hg⟩ := hinv.shape.stop.quiet (isStarted_stopped c)
      have hempty : Mirror field log { ({ c with tasks }.switched user).stopped with
          writePipeline := [] } := mirror_of_none h hg rfl rfl rfl
      exact hempty.filled (.stopped hs hi hg)
  | switchedOffline htasks hnetwork => exact ⟨h.tail, h.shows⟩
  | @enabled tasks htasks =>
      have htail : Mirror field log { c with tasks, isNetworkEnabled := true } := ⟨h.tail, h.shows⟩
      exact htail.filled (hinv.shape.congr rfl rfl rfl rfl rfl rfl)
  | disabled htasks =>
      obtain ⟨-, -, hg⟩ := hinv.shape.stop.quiet (isStarted_stopped c)
      exact mirror_of_none h hg rfl rfl rfl
  | stale htasks hn => exact ⟨h.tail, h.shows⟩
  | opened htasks hstate =>
      have hhandshake := hinv.unshaken (by rw [hstate]; decide)
      exact ⟨tail_of_eq (unheard_of_ungreeted hhandshake) List.nil_suffix, h.shows⟩
  | unauthorized htasks hstate => exact ⟨List.nil_suffix, h.shows⟩
  | restarted hstate => exact ⟨h.tail, h.shows⟩
  | idled hidle => exact ⟨List.nil_suffix, h.shows⟩
  | greeting hhandshake hstream =>
      exact ⟨tail_of_eq (unheard_of_ungreeted hhandshake) List.nil_suffix, h.shows⟩
  | @taken b answered rest hhandshake hpipeline hstream =>
      have hunheard : ({ c with
          applied := c.applied ++ [b.mutations]
          grpcStream := some ⟨c.currentUser, messages rest, answered.length + 1⟩ } :
            Client U M).unheard = answered ++ [b] := by
        have hpipeline' : c.writePipeline = (answered ++ [b]) ++ rest := by
          rw [List.append_assoc]
          exact hpipeline
        have hlength : answered.length + 1 = (answered ++ [b]).length := by
          rw [List.length_append]
          rfl
        exact unheard_eq hhandshake hpipeline'
          (congrArg (fun n => some (GrpcStream.mk c.currentUser (messages rest) n)) hlength)
      have htail := h.tail
      rw [unheard_eq hhandshake hpipeline hstream] at htail
      have hb : b ∈ c.batches := by
        have hmem : b ∈ c.writePipeline := by
          rw [hpipeline]
          exact List.mem_append_right _ List.mem_cons_self
        exact (List.mem_filter.mp (hinv.prefix_queue.subset hmem)).1
      refine ⟨tail_of_eq hunheard ?_, h.shows.take (mem_unaccepted hb)⟩
      obtain ⟨before, hbefore⟩ := htail
      exact ⟨before, by rw [List.map_append, ← List.append_assoc, hbefore]; rfl⟩
  | greeted hhandshake hstream =>
      have hunheard : ({ c with
          handshakeComplete := true
          grpcStream := some ⟨c.currentUser, [], 0⟩ }.posted c.writePipeline : Client U M).unheard =
            [] := unheard_eq rfl rfl rfl
      exact ⟨tail_of_eq hunheard List.nil_suffix, h.shows⟩
  | @acknowledged b answered rest hhandshake hpipeline hstream =>
      obtain ⟨more, hqueue⟩ := hinv.queue_eq hpipeline
      rw [List.append_assoc] at hqueue
      have hunheard : c.unheard = b :: answered := unheard_eq hhandshake hpipeline hstream
      have htail := h.tail
      rw [hunheard] at htail
      have hshape := hinv.shape_acknowledged hhandshake hpipeline
      have hread : Mirror field log ({ c with
          writePipeline := answered ++ rest
          grpcStream := some ⟨c.currentUser, messages rest, answered.length⟩ }.settled b true) := by
        refine ⟨tail_of_eq (unheard_eq hhandshake rfl rfl) ?_, ?_⟩
        · exact (List.suffix_cons b.mutations _).trans htail
        · exact shows_accepted h.shows hinv.ordered hqueue htail
      exact hread.filled (hshape.congr rfl rfl rfl rfl rfl rfl)
  | finished hstream hpipeline => exact ⟨List.nil_suffix, h.shows⟩
  | failed hstream hkeep => exact ⟨List.nil_suffix, h.shows⟩
  | @rejected e b rest he hhandshake hpipeline =>
      obtain ⟨more, hqueue⟩ := hinv.queue_eq hpipeline
      have hb : b ∈ c.queue := by
        rw [hqueue]
        exact List.mem_cons_self
      have hcut : Mirror field log ({ c.cut .initial with writePipeline := rest }.settled b false) :=
        ⟨List.nil_suffix, shows_rejected h.shows hinv.ordered hb⟩
      exact hcut.filled (.stopped (.inl rfl) rfl rfl)

theorem mirror_launched (batches : List (MutationBatch U M)) (user : U) :
    Mirror field log (launched batches user log) where
  tail := List.nil_suffix
  shows := by
    show Shows field (log ++ []) _ log
    rw [List.append_nil]
    exact .refl _ log

/-- At every key the backend has what it had and the accepted writes, in the
order in which they were accepted, leave there, or what a write that was not
accepted leaves there. -/
theorem applied_of_run {batches : List (MutationBatch U M)}
    (hbatches : batches.Pairwise fun a b => a.batchId < b.batchId) {user : U} {c₀ : Client U M}
    (h₀ : initialized batches user log = .ok c₀) {evs : List (Event U M)}
    (h : run next c₀ evs = some c) (field : M → κ → Option ν) :
    Shows field (log ++ c.accepted) c.unaccepted c.applied := by
  rw [initialized_eq hbatches] at h₀
  cases h₀
  have hmirror : c.Inv ∧ Mirror field log c := by
    refine run_invariant (P := fun c => c.Inv ∧ Mirror field log c) ?_
      ⟨inv_launched hbatches, mirror_launched batches user⟩ h
    rintro c e c' ⟨hinv, hmirror⟩ hn
    have hs := step_of_next hinv hn
    exact ⟨hinv.step hs, hmirror.step hinv hs⟩
  exact hmirror.2.shows

end Pompeius.Firestore.Client
