import OpenVpn.PacketId.Window

/-!
# Replay protection across a restart (`--replay-persist`)

The highest time stamp and id of the receive side are kept in a file, and
loaded into the fresh receive state of the next process. What is loaded is a
high-water mark without cells: the list of the fresh state is empty, so the
first accepted packet makes `packet_id_add` start a new list below itself, with
every cell `SEQ_UNSEEN`. If that list reaches down to the loaded mark, the ids
of the previous process in it are acceptable again.

* `Guarded` — a receive state that rejects everything on record; kept by every
  arrival (`Guarded.receive`);
* `Loaded` — the state after the load; it becomes `Guarded` with the first
  accepted packet iff that packet outruns the window (`Outruns`).
-/

namespace OpenVpn

open Base

structure PacketIdPersistFileImage where
  time : Int
  id : Nat
deriving DecidableEq, Repr

/-- `struct packet_id_persist`, without the file name. Its ids are `uint32_t`. -/
structure PacketIdPersist where
  fd : Int
  time : Int
  id : Nat
  timeLastWritten : Int
  idLastWritten : Nat
deriving DecidableEq, Repr

def packetIdPersistInit : PacketIdPersist :=
  { fd := -1, time := 0, id := 0, timeLastWritten := 0, idLastWritten := 0 }

def packetIdPersistEnabled (p : PacketIdPersist) : Bool := decide (0 ≤ p.fd)

/-- `packet_id_persist_load`: `fd` is the result of opening the file, `image`
its contents if they have the size of an image. -/
def packetIdPersistLoad (fd : Int) (image : Option PacketIdPersistFileImage)
    (p : PacketIdPersist) : PacketIdPersist :=
  if packetIdPersistEnabled p then p
  else if fd = -1 then { p with fd := fd }
  else
    match image with
    | none => { p with fd := fd }
    | some image =>
      { fd := fd, time := image.time, id := image.id
        timeLastWritten := image.time, idLastWritten := image.id }

/-- `packet_id_persist_save`: the contents of the file afterwards, if seeking
and writing succeed. -/
def packetIdPersistSave (p : PacketIdPersist) (file : Option PacketIdPersistFileImage) :
    PacketIdPersist × Option PacketIdPersistFileImage :=
  if packetIdPersistEnabled p ∧ p.time ≠ 0 ∧
      (p.time ≠ p.timeLastWritten ∨ p.id ≠ p.idLastWritten) then
    ({ p with timeLastWritten := p.time, idLastWritten := p.id },
      some { time := p.time, id := p.id })
  else (p, file)

def packetIdPersistSaveObj (p : PacketIdPersist) (pid : PacketId) : PacketIdPersist :=
  if packetIdPersistEnabled p ∧ pid.recv.time ≠ 0 then
    { p with time := pid.recv.time, id := pid.recv.id % 2 ^ 32 }
  else p

def packetIdPersistLoadObj (p : PacketIdPersist) (pid : PacketId) : PacketId :=
  if packetIdPersistEnabled p ∧ p.time ≠ 0 then
    { pid with recv := { pid.recv with time := p.time, id := p.id } }
  else pid

/-- A process starts with `--replay-persist`: the mark is read from the file and
put into a fresh receive state. -/
def persistStart (fd : Int) (image : Option PacketIdPersistFileImage)
    (seqBacktrack timeBacktrack : Int) : Option (PacketId × PacketIdPersist) :=
  let persist := packetIdPersistLoad fd image packetIdPersistInit
  (packetIdInit seqBacktrack timeBacktrack).map fun pid =>
    (packetIdPersistLoadObj persist pid, persist)

/-- A received packet, with the mark saved after an acceptance as in
`crypto_check_replay`. -/
def persistReceive (s : PacketId × PacketIdPersist) (a : Arrival Int) :
    Option ((PacketId × PacketIdPersist) × Bool) :=
  match packetIdReceive s.1.recv a with
  | none => none
  | some (recv, ok) =>
    let pid := { s.1 with recv := recv }
    some ((pid, if ok then packetIdPersistSaveObj s.2 pid else s.2), ok)

/-- A packet at or below the persisted mark. -/
def Recorded (persist : PacketIdPersist) (a : Arrival Int) : Prop :=
  a.time < persist.time ∨ a.time = persist.time ∧ a.id ≤ persist.id

/-- A packet ahead of the persisted mark by a whole window, or by a time stamp.
A mark of id `0` covers no id. -/
def Outruns (persist : PacketIdPersist) (seqBacktrack : Int) (a : Arrival Int) : Prop :=
  persist.time < a.time ∨ persist.id = 0 ∨ persist.id + seqBacktrack ≤ a.id

/-! ## States that reject what is on record -/

/-- The window lies above the mark. -/
structure Guarded (persist : PacketIdPersist) (p : PacketIdRec) (l : CircList Int) : Prop where
  mode : BacktrackMode p l
  above : persist.time < p.time ∨
    p.time = persist.time ∧ (persist.id = 0 ∨ persist.id + p.seqBacktrack ≤ p.id)

/-- The state after `packet_id_persist_load_obj`. -/
structure Loaded (persist : PacketIdPersist) (p : PacketIdRec) (l : CircList Int) : Prop where
  mode : BacktrackMode p l
  time : p.time = persist.time
  id : p.id = persist.id
  empty : l.xSize = 0

section States

variable {persist : PacketIdPersist} {p p₁ : PacketIdRec} {l l₁ : CircList Int}

theorem Guarded.settles (h : Guarded persist p l) (hs : Settles p l p₁ l₁) :
    Guarded persist p₁ l₁ :=
  ⟨hs.mode, by rw [hs.time, hs.id, hs.seqBacktrack]; exact h.above⟩

theorem Loaded.settles (h : Loaded persist p l) (hs : Settles p l p₁ l₁) : Loaded persist p₁ l₁ :=
  ⟨hs.mode, hs.time.trans h.time, hs.id.trans h.id, hs.size.trans h.empty⟩

variable {a : Arrival Int}

theorem Guarded.not_recorded (h : Guarded persist p l) (hadm : Admits p l (pinOf a)) :
    ¬ Recorded persist a := by
  unfold Recorded
  have hsize := h.mode.xSize_le
  obtain ⟨hne, hlt | ⟨heq, hid⟩⟩ := hadm
  · simp only [pinOf] at *
    rcases h.above with hab | ⟨hab, -⟩ <;> omega
  · have hwin : p.id < a.id + p.seqBacktrack := by
      rcases hid with hgt | hcell
      · simp only [pinOf] at hgt
        omega
      · have hlen := (List.getElem?_eq_some_iff.mp hcell).1
        rw [l.items_length] at hlen
        simp only [pinOf] at hlen
        omega
    simp only [pinOf] at *
    rcases h.above with hab | ⟨hab, hab'⟩ <;> omega

variable {now : Int} {p' : PacketIdRec} {l' : CircList Int}

theorem Guarded.afterAccept (h : Guarded persist p l) (hacc : Accepted now p l (pinOf a) p' l') :
    Guarded persist p' l' := by
  refine ⟨hacc.mode, ?_⟩
  rw [hacc.time, hacc.id, hacc.seqBacktrack]
  rcases hacc.admits.2 with hlt | ⟨heq, -⟩
  · left
    rcases h.above with hab | ⟨hab, -⟩ <;> omega
  · have := hacc.admits.le_addedId heq
    rw [heq]
    exact h.above.imp_right (And.imp_right (Or.imp_right fun hab => hab.trans this))

theorem Guarded.receive (h : Guarded persist p l) {ok : Bool}
    (hstep : packetIdReceive p a = some (p', ok)) :
    (∃ l', Guarded persist p' l') ∧ (ok = true → ¬ Recorded persist a) := by
  obtain ⟨p₁, l₁, hs, ⟨hrej, -⟩ | ⟨p2, l2, hok, hacc⟩⟩ := packetIdReceive_cases h.mode a
  · cases hrej.symm.trans hstep
    exact ⟨⟨l₁, h.settles hs⟩, fun h => by cases h⟩
  · cases hok.symm.trans hstep
    exact ⟨⟨l2, (h.settles hs).afterAccept hacc⟩, fun _ => (h.settles hs).not_recorded hacc.admits⟩

section

variable (h : Loaded persist p l)

include h

theorem Loaded.above (hadm : Admits p l (pinOf a)) :
    persist.time < a.time ∨ a.time = persist.time ∧ persist.id < a.id := by
  rw [← h.time, ← h.id]
  refine hadm.2.imp_right (And.imp_right fun hid => hid.resolve_right fun hcell => ?_)
  have hlen := (List.getElem?_eq_some_iff.mp hcell).1
  rw [l.items_length, h.empty] at hlen
  exact absurd hlen (Nat.not_lt_zero _)

theorem Loaded.addedId_eq (pin : PacketIdNet) :
    startsNewList p l pin = true ∧ addedId p l pin = pin.id := by
  have hs : startsNewList p l pin = true := by simp [startsNewList, h.empty]
  exact ⟨hs, if_pos hs⟩

theorem Loaded.afterAccept (hacc : Accepted now p l (pinOf a) p' l')
    (hout : Outruns persist p.seqBacktrack a) : Guarded persist p' l' := by
  refine ⟨hacc.mode, ?_⟩
  rw [hacc.time, hacc.id, (h.addedId_eq _).2, hacc.seqBacktrack]
  simp only [pinOf]
  rcases h.above hacc.admits with hlt | ⟨heq, -⟩
  · exact .inl hlt
  · refine .inr ⟨heq, ?_⟩
    rcases hout with hlt | h0 | hle
    · omega
    · exact .inl h0
    · exact .inr (by omega)

theorem Loaded.admits_again (hacc : Accepted now p l (pinOf a) p' l')
    (hout : ¬ Outruns persist p.seqBacktrack a) :
    Admits p' l' { id := persist.id, time := persist.time } := by
  obtain ⟨hs, hid⟩ := h.addedId_eq (pinOf a)
  unfold Outruns at hout
  have htime := hacc.time
  have hsize := hacc.size
  rw [hacc.id, hid, hacc.seqBacktrack] at hsize
  have habove := h.above hacc.admits
  have hpin : (pinOf a).id = a.id ∧ (pinOf a).time = a.time := ⟨rfl, rfl⟩
  refine ⟨by simp only; omega, .inr ⟨by simp only; omega, .inr ?_⟩⟩
  rw [hacc.id, hid, hacc.cells _ (by simp only; omega)]
  unfold addedCell
  rw [hid, if_neg (by simp only; omega), if_pos (.inl hs)]

/-- **Every run** after a load: what it accepts was not recorded. -/
theorem Loaded.run_not_recorded {as : List (Arrival Int)}
    {verdicts : List Bool} (hrun : run packetIdReceive p as = some (p', verdicts))
    (hout : ∀ q ∈ (accepted as verdicts).head?, Outruns persist p.seqBacktrack q) :
    ∀ a ∈ accepted as verdicts, ¬ Recorded persist a := by
  induction as generalizing p l verdicts with
  | nil => cases hrun; simp
  | cons a as ih =>
    obtain ⟨p2, ok, os, hstep, hrun', rfl⟩ := run_cons_inv hrun
    obtain ⟨p₁, l₁, hs, ⟨hrej, -⟩ | ⟨p2, l2, hok, hacc⟩⟩ := packetIdReceive_cases h.mode a
    · cases hrej.symm.trans hstep
      rw [← hs.seqBacktrack] at hout
      exact ih (h.settles hs) hrun' hout
    · -- the first accepted packet: from here on the state is guarded
      cases hok.symm.trans hstep
      rw [accepted_cons_true] at hout ⊢
      have hout' := hout a rfl
      rw [← hs.seqBacktrack] at hout'
      refine List.forall_mem_cons.mpr ⟨?_, ?_⟩
      · unfold Recorded
        have := (h.settles hs).above hacc.admits
        omega
      · exact run_accepted (I := fun p => ∃ l, Guarded persist p l)
          (fun p a p' ok ⟨l, hg⟩ hstep => hg.receive hstep)
          ⟨l2, (h.settles hs).afterAccept hacc hout'⟩ hrun'

end

end States

theorem loaded_init {seqBacktrack timeBacktrack : Int}
    (hseq : 1 ≤ seqBacktrack ∧ seqBacktrack ≤ MAX_SEQ_BACKTRACK)
    (htime : MIN_TIME_BACKTRACK ≤ timeBacktrack ∧ timeBacktrack ≤ MAX_TIME_BACKTRACK)
    {persist : PacketIdPersist} (hen : packetIdPersistEnabled persist = true)
    (hmark : persist.time ≠ 0) :
    ∃ pid l, (packetIdInit seqBacktrack timeBacktrack).map
        (packetIdPersistLoadObj persist) = some pid ∧
      Loaded persist pid.recv l ∧ (pid.recv.seqBacktrack : Int) = seqBacktrack := by
  obtain ⟨p, l, hrecv, hm, hsize, hf⟩ := packetIdInitRecv_eq hseq htime
  refine ⟨_, l, by rw [packetIdInit, hrecv, Option.map_some, packetIdPersistLoadObj,
    if_pos ⟨hen, hmark⟩], ?_, ?_⟩
  · exact ⟨⟨hm.initialized, hm.list, hm.cap, hm.cap_le, .inl hsize⟩, rfl, rfl, hsize⟩
  · rw [hf.seqBacktrack]
    omega

/-- **What a persisted mark protects.** Load any mark into a fresh receive
state. No run ever aborts, and a run whose first accepted packet outruns the
window by the mark accepts nothing on record. Conversely, after a first accepted
packet that does not outrun the window, the packet of the mark itself is
accepted again. -/
theorem persisted_mark_protects_iff_outrun (seqBacktrack timeBacktrack : Int)
    (hseq : 1 ≤ seqBacktrack ∧ seqBacktrack ≤ MAX_SEQ_BACKTRACK)
    (htime : MIN_TIME_BACKTRACK ≤ timeBacktrack ∧ timeBacktrack ≤ MAX_TIME_BACKTRACK)
    (persist : PacketIdPersist) (henabled : packetIdPersistEnabled persist = true)
    (hmark : persist.time ≠ 0) :
    ∃ pid, (packetIdInit seqBacktrack timeBacktrack).map
        (packetIdPersistLoadObj persist) = some pid ∧
      (∀ as, ∃ p verdicts, run packetIdReceive pid.recv as = some (p, verdicts) ∧
        ((∀ q ∈ (accepted as verdicts).head?, Outruns persist seqBacktrack q) →
          ∀ a ∈ accepted as verdicts, ¬ Recorded persist a)) ∧
      (∀ q p, packetIdReceive pid.recv q = some (p, true) →
        ¬ Outruns persist seqBacktrack q →
        ∃ a p', run packetIdReceive pid.recv [q, a] = some (p', [true, true]) ∧
          Recorded persist a) := by
  obtain ⟨pid, l, hpid, hl, hwin⟩ := loaded_init hseq htime henabled hmark
  refine ⟨pid, hpid, fun as => ?_, fun q p hq hout => ?_⟩
  · have hguard : RunGuard packetIdReceive (fun _ _ => True) pid.recv as := runGuard_true _ as
    obtain ⟨p, verdicts, hrun, -⟩ := run_isSome (I := fun p => ∃ l, BacktrackMode p l)
      (fun p a ⟨l, hm⟩ _ => by
        obtain ⟨p₁, l₁, hs, ⟨hrej, -⟩ | ⟨p', l', hok, hacc⟩⟩ := packetIdReceive_cases hm a
        · exact ⟨p₁, false, hrej, l₁, hs.mode⟩
        · exact ⟨p', true, hok, l', hacc.mode⟩)
      ⟨l, hl.mode⟩ hguard
    exact ⟨p, verdicts, hrun, fun hout => hl.run_not_recorded hrun (hwin ▸ hout)⟩
  · rw [← hwin] at hout
    obtain ⟨p₁, l₁, hs, ⟨hrej, -⟩ | ⟨p', l', hok, hacc⟩⟩ := packetIdReceive_cases hl.mode q
    · cases hrej.symm.trans hq
    cases hok.symm.trans hq
    rw [← hs.seqBacktrack] at hout
    have hadm := (hl.settles hs).admits_again hacc hout
    obtain ⟨n, p'', -, hagain⟩ := packetIdTestAdd_accept hacc.mode hadm q.now
    refine ⟨⟨q.now, false, persist.time, persist.id⟩, p'', ?_, .inr ⟨rfl, Nat.le_refl _⟩⟩
    exact run_cons hok (run_cons hagain rfl)

/-- The mark `(900, 1)` under the default window. -/
theorem persisted_mark_protects_default_window :
    ∃ pid, (packetIdInit 64 15).map (packetIdPersistLoadObj ⟨3, 900, 1, 900, 1⟩) = some pid ∧
      (∀ as, ∃ p verdicts, run packetIdReceive pid.recv as = some (p, verdicts) ∧
        ((∀ q ∈ (accepted as verdicts).head?, Outruns ⟨3, 900, 1, 900, 1⟩ 64 q) →
          ∀ a ∈ accepted as verdicts, ¬ Recorded ⟨3, 900, 1, 900, 1⟩ a)) := by
  obtain ⟨pid, hpid, hsafe, -⟩ := persisted_mark_protects_iff_outrun 64 15 (by decide)
    (by decide) ⟨3, 900, 1, 900, 1⟩ (by decide) (by decide)
  exact ⟨pid, hpid, hsafe⟩

/-- The first process accepts the packet `(900, 1)` and its mark is written to
the file. The next process loads it, accepts `(900, 2)`, and then the replayed
`(900, 1)`. -/
theorem persisted_mark_accepted_again :
    (do
      let s ← persistStart 3 none 64 15
      let (s, first) ← run persistReceive s [⟨1000, true, 900, 1⟩]
      let image := (packetIdPersistSave s.2 none).2
      let s ← persistStart 3 image 64 15
      let (_, second) ← run persistReceive s [⟨2000, true, 900, 2⟩, ⟨2000, true, 900, 1⟩]
      some (image, first, second)) =
        some (some { time := 900, id := 1 }, [true], [true, true]) := by
  decide

end OpenVpn
