/-
# Histories against a sink that fills up

A recorder keeps the versions that are handed to it, and refuses every one while it holds exactly
as many as its limit says.  Requests are carried out on it in turn, each on the version that the
one before has left in memory, even if that one failed.

From the first failure on, the versions in memory are not those of a recorder without a limit any
more.  What was recorded still is: the recorder is full, and stays as it is, while the other one
only goes on adding.  So the two histories are prefixes of each other (`Follows`).
-/
import Mathlib.Data.List.Induction
import VersionStamp.Proofs.Bump.Effect

namespace VersionStamp

namespace Bump

variable {σ ε : Type}

/-! ## Requests in turn -/

/-- One request on the version in memory and the state of the sink. -/
def turn (store : Sink σ ε) (verbose : Bool) (r : Request) (p : Version × σ) : Outcome ε × σ :=
  (apply store verbose r p.1).run p.2

/-- The version in memory and the state of the sink after requests that are carried out in turn.
The version is carried over, also after a failure. -/
def carry (store : Sink σ ε) (verbose : Bool) (requests : List Request) (p : Version × σ) :
    Version × σ :=
  requests.foldl (fun p r => ((turn store verbose r p).1.version, (turn store verbose r p).2)) p

/-- Requests are carried out in two parts. -/
theorem carry_append (store : Sink σ ε) (verbose : Bool) (front back : List Request)
    (p : Version × σ) :
    carry store verbose (front ++ back) p =
      carry store verbose back (carry store verbose front p) :=
  List.foldl_append

/-- The last request starts from where the others have led. -/
theorem carry_append_singleton (store : Sink σ ε) (verbose : Bool) (done : List Request)
    (r : Request) (p : Version × σ) :
    carry store verbose (done ++ [r]) p =
      let last := turn store verbose r (carry store verbose done p)
      (last.1.version, last.2) :=
  carry_append store verbose done [r] p

/-- One more request starts from where the ones before it have led. -/
theorem carry_take_succ {store : Sink σ ε} {verbose : Bool} {requests : List Request} {i : Nat}
    {r : Request} (h : requests[i]? = some r) (p : Version × σ) :
    carry store verbose (requests.take (i + 1)) p =
      let last := turn store verbose r (carry store verbose (requests.take i) p)
      (last.1.version, last.2) := by
  have htake : requests.take (i + 1) = requests.take i ++ [r] := by
    rw [List.take_add_one, h]
    rfl
  rw [htake]
  exact carry_append_singleton store verbose (requests.take i) r p

/-! ## The recorder -/

/-- A sink that keeps the versions that it accepts, in order.  While it holds exactly as many as
the limit, it refuses every version. -/
def recorder (limit : Option Nat) (e : ε) : Sink (List Version) ε :=
  fun v kept => if limit = some kept.length then (.error e, kept) else (.ok (), kept ++ [v])

section

variable {limit : Option Nat} {e : ε} {verbose : Bool} {kept : List Version} {v : Version}
  {steps : List Step} {n : Nat}

/-- As long as there is room, every version is accepted and kept. -/
theorem accepts_recorder {vs : List Version}
    (h : ∀ n, limit = some n → kept.length + vs.length ≤ n) :
    (recorder limit e).Accepts vs kept ∧ (recorder limit e).stateAfter vs kept = kept ++ vs := by
  induction vs generalizing kept with
  | nil => exact ⟨trivial, (List.append_nil kept).symm⟩
  | cons v rest ih =>
    have hroom : limit ≠ some kept.length := by
      intro hfull
      have hle := h kept.length hfull
      rw [List.length_cons] at hle
      omega
    have hanswer : (recorder limit e v).run kept = (.ok (), kept ++ [v]) := if_neg hroom
    have hnext : (recorder limit e).next v kept = kept ++ [v] := congrArg Prod.snd hanswer
    have hrest : ∀ n, limit = some n → (kept ++ [v]).length + rest.length ≤ n := by
      intro n hn
      have hle := h n hn
      rw [List.length_cons] at hle
      rw [List.length_append, List.length_singleton]
      omega
    obtain ⟨haccepts, hstate⟩ := ih hrest
    constructor
    · show _ ∧ (recorder limit e).Accepts rest ((recorder limit e).next v kept)
      rw [hnext]
      exact ⟨congrArg Prod.fst hanswer, haccepts⟩
    · show (recorder limit e).stateAfter rest ((recorder limit e).next v kept) = _
      rw [hnext, hstate, List.append_assoc]
      rfl

/-- A full recorder refuses every version and stays as it is. -/
theorem recorder_run_of_full (h : kept.length = n) (v : Version) :
    (recorder (some n) e v).run kept = (.error e, kept) :=
  if_pos (congrArg some h.symm)

/-- As long as there is room, all steps are taken and kept. -/
theorem run_recorder_of_room (h : ∀ n, limit = some n → kept.length + steps.length ≤ n) :
    (run (recorder limit e) verbose steps v).run kept =
      (⟨applyAll steps v, .ok steps.length, storedEntries verbose steps v⟩,
        kept ++ versions steps v) := by
  rw [← length_versions steps v] at h
  obtain ⟨haccepts, hstate⟩ := accepts_recorder (e := e) h
  rw [run_of_accepts haccepts, hstate]

/-- With a full recorder, the first step is the last one. -/
theorem run_recorder_of_full (h : kept.length = n) {step : Step} {rest : List Step} :
    (run (recorder (some n) e) verbose (step :: rest) v).run kept =
      (⟨step.apply v, .error e, []⟩, kept) := by
  have hrefused := recorder_run_of_full (e := e) h (step.apply v)
  have hnext : (recorder (some n) e).next (step.apply v) kept = kept := congrArg Prod.snd hrefused
  rw [run_cons_of_error (congrArg Prod.fst hrefused), hnext]

/-- When the room runs out among the steps, the run fails and the recorder is full of the first of
the versions. -/
theorem run_recorder_of_overflow (e : ε) (verbose : Bool) (v : Version) (hkept : kept.length ≤ n)
    (h : n < kept.length + steps.length) :
    ((run (recorder (some n) e) verbose steps v).run kept).1.result = .error e ∧
      ((run (recorder (some n) e) verbose steps v).run kept).2 =
        (kept ++ versions steps v).take n := by
  -- The steps for which there is room, and the first one for which there is none.
  obtain ⟨done, step, rest, rfl, hdone⟩ : ∃ done step rest,
      steps = done ++ step :: rest ∧ kept.length + done.length = n := by
    have hlt : n - kept.length < steps.length := by omega
    refine ⟨steps.take (n - kept.length), steps[n - kept.length],
      steps.drop (n - kept.length + 1), ?_, ?_⟩
    · rw [← List.drop_eq_getElem_cons hlt, List.take_append_drop]
    · rw [List.length_take]
      omega
  have hroom : ∀ m, some n = some m → kept.length + (versions done v).length ≤ m := by
    intro m hm
    rw [length_versions]
    exact Nat.le_of_eq (hdone.trans (Option.some.inj hm))
  obtain ⟨haccepts, hstate⟩ := accepts_recorder (e := e) hroom
  have hlength : (kept ++ versions done v).length = n := by
    rw [List.length_append, length_versions, hdone]
  have hrefused := recorder_run_of_full (e := e) hlength (step.apply (applyAll done v))
  have hanswer : (recorder (some n) e).answer (step.apply (applyAll done v))
      ((recorder (some n) e).stateAfter (versions done v) kept) = .error e := by
    rw [hstate]
    exact congrArg Prod.fst hrefused
  rw [run_of_refuses haccepts hanswer, hstate]
  refine ⟨rfl, ?_⟩
  show (recorder (some n) e).next (step.apply (applyAll done v)) (kept ++ versions done v) = _
  rw [versions_append, ← List.append_assoc, List.take_left' hlength]
  exact congrArg Prod.snd hrefused

end

/-! ## One request beside a recorder without a limit -/

section

variable {e : ε} {verbose : Bool} {n : Nat} {r : Request}

/-- Without a limit, a request succeeds and its versions are added. -/
theorem turn_recorder_none (p : Version × List Version) :
    turn (recorder none e) verbose r p =
      (⟨applyAll r.steps p.1, .ok r.steps.length, storedEntries verbose r.steps p.1⟩,
        p.2 ++ versions r.steps p.1) :=
  run_recorder_of_room nofun

/-- From the same start, a request keeps the first `n` of the versions that it keeps without the
limit; it goes the same way, or it fails and leaves the recorder full. -/
theorem turn_recorder_some (e : ε) (verbose : Bool) (r : Request) {p : Version × List Version}
    (hp : p.2.length ≤ n) :
    (turn (recorder (some n) e) verbose r p).2 = (turn (recorder none e) verbose r p).2.take n ∧
      (turn (recorder (some n) e) verbose r p = turn (recorder none e) verbose r p ∨
        (turn (recorder (some n) e) verbose r p).1.result = .error e ∧
          (turn (recorder (some n) e) verbose r p).2.length = n) := by
  rw [turn_recorder_none]
  have hlength : (p.2 ++ versions r.steps p.1).length = p.2.length + r.steps.length := by
    rw [List.length_append, length_versions]
  rcases Nat.lt_or_ge n (p.2.length + r.steps.length) with hover | hroom
  · obtain ⟨hresult, hstate⟩ :=
      run_recorder_of_overflow e verbose p.1 hp hover
    refine ⟨hstate, Or.inr ⟨hresult, ?_⟩⟩
    rw [turn, apply, hstate, List.length_take, hlength]
    exact Nat.min_eq_left (Nat.le_of_lt hover)
  · have hsame : turn (recorder (some n) e) verbose r p = _ := run_recorder_of_room fun m hm =>
      Option.some.inj hm ▸ hroom
    rw [hsame]
    refine ⟨(List.take_of_length_le ?_).symm, Or.inl rfl⟩
    rw [hlength]
    exact hroom

/-- On a full recorder, a request that changes something fails at its first step. -/
theorem turn_recorder_of_full (e : ε) (verbose : Bool) {p : Version × List Version}
    (hp : p.2.length = n) (hr : r.isMutating = true) :
    ∃ step rest, r.steps = step :: rest ∧
      turn (recorder (some n) e) verbose r p = (⟨step.apply p.1, .error e, []⟩, p.2) := by
  cases hsteps : r.steps with
  | nil => simp [steps_eq_nil_iff.1 hsteps] at hr
  | cons step rest =>
    refine ⟨step, rest, rfl, ?_⟩
    rw [turn, apply, hsteps]
    exact run_recorder_of_full hp

/-- A request that changes nothing succeeds on every sink, and leaves all as it is. -/
theorem turn_of_not_isMutating {σ : Type} {store : Sink σ ε} {p : Version × σ}
    (hr : r.isMutating = false) : turn store verbose r p = (⟨p.1, .ok 0, []⟩, p.2) := by
  rw [turn, apply_of_not_isMutating hr]
  rfl

/-- A full recorder stays as it is. -/
theorem turn_snd_of_full {p : Version × List Version} (hp : p.2.length = n) :
    (turn (recorder (some n) e) verbose r p).2 = p.2 := by
  cases hr : r.isMutating with
  | true =>
    obtain ⟨step, rest, -, hturn⟩ := turn_recorder_of_full e verbose hp hr
    rw [hturn]
  | false => rw [turn_of_not_isMutating hr]

end

/-! ## Two histories beside each other -/

/-- A history with a limit beside one without: what is recorded is the beginning of what the other
one has recorded, and either they are still the same or the recorder is full. -/
structure Follows (n : Nat) (limited full : Version × List Version) : Prop where
  recorded : limited.2 = full.2.take n
  same_or_full : limited = full ∨ limited.2.length = n

section

variable {e : ε} {verbose : Bool} {n : Nat} {requests : List Request} {v : Version}

/-- Two histories stay beside each other for one more request. -/
theorem Follows.next {limited full : Version × List Version} (h : Follows n limited full)
    (r : Request) :
    Follows n
      ((turn (recorder (some n) e) verbose r limited).1.version,
        (turn (recorder (some n) e) verbose r limited).2)
      ((turn (recorder none e) verbose r full).1.version,
        (turn (recorder none e) verbose r full).2) := by
  rcases h.same_or_full with rfl | hfull
  · have hle : limited.2.length ≤ n := by
      rw [h.recorded]
      exact List.length_take_le n limited.2
    obtain ⟨hrecorded, hsame | ⟨-, hlength⟩⟩ :=
      turn_recorder_some e verbose r hle
    · exact ⟨hrecorded, Or.inl (by rw [hsame])⟩
    · exact ⟨hrecorded, Or.inr hlength⟩
  · -- The full recorder does not change, and the other one only adds behind its first `n`.
    have hlong : n ≤ full.2.length := by
      have hlength := congrArg List.length h.recorded
      rw [List.length_take, hfull] at hlength
      omega
    refine ⟨?_, Or.inr ?_⟩
    · show (turn (recorder (some n) e) verbose r limited).2 = _
      rw [turn_snd_of_full hfull, turn_recorder_none, List.take_append_of_le_length hlong]
      exact h.recorded
    · show (turn (recorder (some n) e) verbose r limited).2.length = n
      rw [turn_snd_of_full hfull]
      exact hfull

/-- After any requests, the two histories are beside each other. -/
theorem follows_carry (requests : List Request) (v : Version) :
    Follows n (carry (recorder (some n) e) verbose requests (v, []))
      (carry (recorder none e) verbose requests (v, [])) := by
  induction requests using List.reverseRecOn with
  | nil => exact ⟨List.take_nil.symm, Or.inl rfl⟩
  | append_singleton done r ih =>
    rw [carry_append_singleton, carry_append_singleton]
    exact ih.next r

/-- A recorder that is full stays as it is, whatever is asked of it. -/
theorem carry_snd_of_full {p : Version × List Version} (hp : p.2.length = n)
    (requests : List Request) : (carry (recorder (some n) e) verbose requests p).2 = p.2 := by
  induction requests using List.reverseRecOn with
  | nil => rfl
  | append_singleton done r ih =>
    rw [carry_append_singleton]
    exact (turn_snd_of_full (ih ▸ hp)).trans ih

/-- The request at a place of the list fails on the recorder with the limit. -/
def FailsAt (n : Nat) (e : ε) (verbose : Bool) (requests : List Request) (v : Version) (i : Nat) :
    Prop :=
  ∃ r fault, requests[i]? = some r ∧
    (turn (recorder (some n) e) verbose r
      (carry (recorder (some n) e) verbose (requests.take i) (v, []))).1.result = .error fault

/-- A recorder never holds more than its limit. -/
theorem length_carry_le (requests : List Request) (v : Version) :
    (carry (recorder (some n) e) verbose requests (v, [])).2.length ≤ n := by
  rw [(follows_carry requests v).recorded]
  exact List.length_take_le n _

/-- A request that fails leaves the recorder full, and so do all requests behind it. -/
theorem length_carry_of_failsAt {k i : Nat} (hk : FailsAt n e verbose requests v k) (hi : k < i) :
    (carry (recorder (some n) e) verbose (requests.take i) (v, [])).2.length = n := by
  obtain ⟨r, fault, hr, hfault⟩ := hk
  have hfull : (carry (recorder (some n) e) verbose (requests.take (k + 1)) (v, [])).2.length =
      n := by
    rw [carry_take_succ hr]
    obtain ⟨-, hsame | ⟨-, hlength⟩⟩ := turn_recorder_some e verbose r
      (length_carry_le (requests.take k) v)
    · rw [hsame, turn_recorder_none] at hfault
      cases hfault
    · exact hlength
  obtain ⟨d, rfl⟩ := Nat.exists_eq_add_of_lt hi
  rw [show k + d + 1 = k + 1 + d by omega, List.take_add, carry_append, carry_snd_of_full hfull]
  exact hfull

/-- Up to the first failure, the two histories are the same. -/
theorem carry_eq_of_not_failsAt {i : Nat} (h : ∀ j < i, ¬FailsAt n e verbose requests v j) :
    carry (recorder (some n) e) verbose (requests.take i) (v, []) =
      carry (recorder none e) verbose (requests.take i) (v, []) := by
  induction i with
  | zero => rfl
  | succ i ih =>
    have hsame := ih fun j hj => h j (Nat.lt_succ_of_lt hj)
    cases hr : requests[i]? with
    | none =>
      have htake : requests.take (i + 1) = requests.take i := by
        rw [List.take_add_one, hr]
        exact List.append_nil _
      rw [htake]
      exact hsame
    | some r =>
      rw [carry_take_succ hr, carry_take_succ hr, ← hsame]
      obtain ⟨-, hturn | ⟨hfault, -⟩⟩ := turn_recorder_some e verbose r
        (length_carry_le (requests.take i) v)
      · rw [hturn]
      · exact absurd ⟨r, e, hr, hfault⟩ (h i (Nat.lt_succ_self i))

end

/-- **Histories with and without a limit.**  Requests are carried out in turn on a recorder with
a limit, and the same requests on one without.  The first one records the first versions of the
other one, up to its limit.  Up to its first failure every request goes the same way on both.
After a failure every request that changes something fails: it records nothing, and takes the
version in memory one step ahead; every other request still succeeds and leaves all as it is. -/
theorem recorded_with_limit (n : Nat) (e : ε) (verbose : Bool) (requests : List Request)
    (v : Version) :
    let limited := fun i => carry (recorder (some n) e) verbose (requests.take i) (v, [])
    let full := fun i => carry (recorder none e) verbose (requests.take i) (v, [])
    let limitedTurn := fun i r => turn (recorder (some n) e) verbose r (limited i)
    let fullTurn := fun i r => turn (recorder none e) verbose r (full i)
    (∀ i, (limited i).2 = (full i).2.take (min n (full i).2.length)) ∧
      (∀ i r, requests[i]? = some r → (fullTurn i r).1.result = .ok r.steps.length) ∧
      (∀ i r, requests[i]? = some r → (∀ j ≤ i, ¬FailsAt n e verbose requests v j) →
        limited i = full i ∧ limitedTurn i r = fullTurn i r) ∧
      ∀ k i r, FailsAt n e verbose requests v k → k < i → requests[i]? = some r →
        (r.isMutating = true → ∃ step rest, r.steps = step :: rest ∧
          limitedTurn i r = (⟨step.apply (limited i).1, .error e, []⟩, (limited i).2)) ∧
        (r.isMutating = false → limitedTurn i r = (⟨(limited i).1, .ok 0, []⟩, (limited i).2)) := by
  intro limited full limitedTurn fullTurn
  refine ⟨?_, ?_, ?_, ?_⟩
  · intro i
    rw [← List.take_eq_take_min]
    exact (follows_carry (requests.take i) v).recorded
  · intro i r _
    show (turn (recorder none e) verbose r (full i)).1.result = _
    rw [turn_recorder_none]
  · intro i r hr hok
    have hsame : limited i = full i := carry_eq_of_not_failsAt fun j hj => hok j (Nat.le_of_lt hj)
    refine ⟨hsame, ?_⟩
    obtain ⟨-, hturn | ⟨hfault, -⟩⟩ := turn_recorder_some e verbose r
      (length_carry_le (requests.take i) v)
    · exact hturn.trans (congrArg (turn (recorder none e) verbose r) hsame)
    · exact absurd ⟨r, e, hr, hfault⟩ (hok i (Nat.le_refl i))
  · intro k i r hk hi _
    exact ⟨fun hr => turn_recorder_of_full e verbose (length_carry_of_failsAt hk hi) hr,
      fun hr => turn_of_not_isMutating hr⟩

/-- With a limit of one, the second step of `0.5.5` is refused: of three later requests two fail at
their first step, from the version that the refused step has left in memory. -/
theorem recorded_with_limit_one :
    let requests : List Request :=
      [{ major := true, patch := true }, { minor := true, suffix := some "rc1" }, {},
        { patch := true }]
    let limited := fun i => carry (recorder (some 1) "full") false (requests.take i)
      (⟨0, 5, 5, ""⟩, [])
    FailsAt 1 "full" false requests ⟨0, 5, 5, ""⟩ 0 ∧
      (limited 4).2 = [⟨1, 0, 0, ""⟩] ∧
      (turn (recorder (some 1) "full") false { minor := true, suffix := some "rc1" }
        (limited 1)).1 = ⟨⟨1, 1, 0, ""⟩, .error "full", []⟩ := by
  intro requests limited
  have hfails : FailsAt 1 "full" false requests ⟨0, 5, 5, ""⟩ 0 :=
    ⟨{ major := true, patch := true }, "full", rfl, rfl⟩
  obtain ⟨hrecorded, -, -, hafter⟩ :=
    recorded_with_limit 1 "full" false requests ⟨0, 5, 5, ""⟩
  obtain ⟨hmutating, -⟩ := hafter 0 1 _ hfails (by decide) rfl
  obtain ⟨step, rest, hsteps, hturn⟩ := hmutating rfl
  refine ⟨hfails, (hrecorded 4).trans rfl, ?_⟩
  cases hsteps
  exact congrArg Prod.fst hturn

end Bump

end VersionStamp
