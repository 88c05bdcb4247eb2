import Mathlib.Data.List.Nodup
import Twapi.Lib.DList
import Twapi.NamedPipe.Model

/-!
`NPipeCheckProc` of `namedpipe/namedpipe.c`: the loop over the channels of a thread.

* `DList` is `zlist.h`'s list, with `ZLIST_MOVETOHEAD` as `moveToHead`.
* The loop moves a channel to the head of the list, and goes on at what then comes after it.
  Channels that it passed before are visited again (`visiting`).
* `check_proc_queues` — it ends, every channel is visited, and there is an event for each
  that needs one.

The states of the channels do not change while it runs.
-/

namespace Twapi.NamedPipe.Check

open List

open Lib (DList)

variable {ρ η : Type} [DecidableEq ρ]

/-- `NPipeTls`, with the memory of the channels and the queue of events; an event has the
handle of its channel. `visits` are the channels that were looked at. -/
structure Thread (ρ η : Type) where
  pipes : DList ρ
  channel : ρ → Channel
  hpipe : ρ → η
  nrefs : ρ → Int
  queue : List η
  visits : List ρ

/-- The condition for an event. -/
def needsEvent (c : Channel) : Bool := c.notifiable ∧ !c.eventQueued

/-- The body of the loop. -/
def Thread.visit (t : Thread ρ η) (p : ρ) : Thread ρ η :=
  let t := { t with visits := t.visits ++ [p] }
  if needsEvent (t.channel p) then
    { t with
      pipes := t.pipes.moveToHead p
      channel := fun q => if q = p then { t.channel p with eventQueued := true } else t.channel q
      queue := t.queue ++ [t.hpipe p] }
  else t

/-- The loop, for at most so many channels. -/
def walk : Nat → Option ρ → Thread ρ η → Option (Thread ρ η)
  | _, none, t => some t
  | 0, some _, _ => none
  | n + 1, some p, t => walk n ((t.visit p).pipes.link p).next (t.visit p)

def TCL_FILE_EVENTS : UInt32 := 8

def nPipeCheckProc (n : Nat) (flags : UInt32) (t : Thread ρ η) : Option (Thread ρ η) :=
  if flags &&& TCL_FILE_EVENTS = 0 then some t else walk n t.pipes.head t

/-! ### The channels it visits -/

/-- What is visited of `rest`, when the channels `done` are before it. After a channel was
moved they come again. -/
def visiting (needs : ρ → Bool) : List ρ → List ρ → List ρ
  | _, [] => []
  | done, p :: rest =>
    if needs p then p :: (done ++ visiting needs (p :: done) rest)
    else p :: visiting needs (done ++ [p]) rest

section
variable {needs : ρ → Bool} {done rest : List ρ} {p : ρ}

theorem mem_visiting : p ∈ visiting needs done rest → p ∈ done ∨ p ∈ rest := by
  fun_induction visiting needs done rest with
  | case1 => simp
  | case2 done q rest _ ih => 
    simp only [mem_cons, mem_append] at ih ⊢
    tauto
  | case3 done q rest _ ih =>
    simp only [mem_cons, mem_append, not_mem_nil] at ih ⊢
    tauto

/-- A channel that is already passed comes again each time a channel is moved. -/
theorem count_done (nodup : (done ++ rest).Nodup) (among : p ∈ done) :
    (visiting needs done rest).count p = rest.countP needs := by
  fun_induction visiting needs done rest with
  | case1 => rfl
  | case2 done q rest need ih =>
    have other : q ≠ p := fun same =>
      (nodup_append.mp nodup).2.2 p among q (mem_cons_self ..) same.symm
    have later := ih ((perm_middle.nodup_iff).mp nodup) (mem_cons_of_mem _ among)
    have once := count_eq_one_of_mem (nodup_append.mp nodup).1 among
    rw [count_cons_of_ne other, count_append, later, once,
      countP_cons_of_pos need, Nat.add_comm]
  | case3 done q rest idle ih =>
    have other : q ≠ p := fun same =>
      (nodup_append.mp nodup).2.2 p among q (mem_cons_self ..) same.symm
    have later := ih (by rwa [append_assoc]) (mem_append_left _ among)
    rw [count_cons_of_ne other, later, countP_cons_of_neg idle]

/-- A channel comes once, and once more for each channel behind it that is moved. -/
theorem count_visiting (left right : List ρ) (nodup : (done ++ (left ++ p :: right)).Nodup) :
    (visiting needs done (left ++ p :: right)).count p = 1 + right.countP needs := by
  induction left generalizing done with
  | nil =>
    rw [nil_append] at nodup ⊢
    have fresh : p ∉ done := fun among =>
      (nodup_append.mp nodup).2.2 p among p (mem_cons_self ..) rfl
    rw [visiting]
    split
    · have later : (visiting needs (p :: done) right).count p = _ :=
        count_done ((perm_middle.nodup_iff).mp nodup) (mem_cons_self ..)
      rw [count_cons_self, count_append, later, count_eq_zero.mpr fresh]
      omega
    · have later : (visiting needs (done ++ [p]) right).count p = _ :=
        count_done (by rwa [append_assoc]) (by simp)
      rw [count_cons_self, later, Nat.add_comm]
  | cons q left ih =>
    have fresh : q ∉ done := fun among =>
      (nodup_append.mp nodup).2.2 q among q (mem_cons_self ..) rfl
    have moved : ((q :: done) ++ (left ++ p :: right)).Nodup :=
      (perm_middle.nodup_iff).mp nodup
    have other : q ≠ p := fun same =>
      (nodup_cons.mp moved).1 (by simp [same])
    rw [cons_append, visiting]
    split
    · have not_done : p ∉ done := fun among =>
        (nodup_append.mp nodup).2.2 p among p (by simp) rfl
      rw [count_cons_of_ne other, count_append, count_eq_zero.mpr not_done,
        Nat.zero_add, ih moved]
    · rw [count_cons_of_ne other, ih (by rwa [append_assoc])]

end

/-! ### The loop -/

section
variable {needs : ρ → Bool} {left done rest : List ρ} {p : ρ} {t : Thread ρ η}

theorem visit_idle (idle : needsEvent (t.channel p) = false) :
    t.visit p = { t with visits := t.visits ++ [p] } := if_neg (by simp [idle])

/-- What is done for a channel that needs an event, before the next one is reached. -/
def Thread.moved (t : Thread ρ η) (done : List ρ) (p : ρ) : Thread ρ η :=
  { t with
    pipes := t.pipes.moveToHead p
    channel := fun q => if q = p then { t.channel p with eventQueued := true } else t.channel q
    queue := t.queue ++ [t.hpipe p]
    visits := t.visits ++ [p] ++ done }

theorem visit_needed (need : needsEvent (t.channel p) = true) : t.visit p = t.moved [] p := by
  refine (if_pos need).trans ?_
  simp [Thread.moved]

/-- The loop passes channels that need no event. -/
theorem walk_idle (listed : t.pipes.Represents (left ++ (done ++ rest)))
    (idle : ∀ p ∈ done, needsEvent (t.channel p) = false) (n : Nat) :
    walk (done.length + n) (done ++ rest).head? t =
      walk n rest.head? { t with visits := t.visits ++ done } := by
  induction done generalizing left t with
  | nil => simp
  | cons p ps ih =>
    have visited := visit_idle (idle p (mem_cons_self ..))
    have next : (t.pipes.link p).next = (ps ++ rest).head? := DList.Represents.next listed
    rw [length_cons, Nat.add_right_comm]
    change walk (ps.length + n) ((t.visit p).pipes.link p).next (t.visit p) = _
    rw [visited]
    change walk (ps.length + n) (t.pipes.link p).next _ = _
    have later : t.pipes.Represents ((left ++ [p]) ++ (ps ++ rest)) := by simpa using listed
    have idle' : ∀ q ∈ ps, needsEvent (t.channel q) = false := fun q among =>
      idle q (mem_cons_of_mem _ among)
    rw [next]
    refine (ih (t := { t with visits := t.visits ++ [p] }) later idle').trans ?_
    simp

/-- After it moved a channel it passes those that it passed before. -/
theorem walk_moved (listed : t.pipes.Represents (done ++ p :: rest))
    (idle : ∀ q ∈ done, needsEvent (t.channel q) = false) (need : needsEvent (t.channel p) = true)
    (n : Nat) :
    walk (done.length + n + 1) (some p) t = walk n rest.head? (t.moved done p) := by
  change walk (done.length + n) ((t.visit p).pipes.link p).next (t.visit p) = _
  rw [visit_needed need]
  have first : (t.moved [] p).pipes.Represents ([] ++ p :: (done ++ rest)) := listed.moveToHead
  have passed : (t.moved [] p).pipes.Represents ([p] ++ (done ++ rest)) := first
  have idle' : ∀ q ∈ done, needsEvent ((t.moved [] p).channel q) = false := by
    intro q among
    have other : q ≠ p := fun same =>
      (nodup_append.mp listed.nodup).2.2 q among p (mem_cons_self ..) same
    simpa [Thread.moved, other] using idle q among
  rw [first.next, walk_idle passed idle']
  simp [Thread.moved]

/-- What the loop does to the channels `rest` and to the list, when it comes to `rest` with
the channels `done` before them. -/
structure Swept (needs : ρ → Bool) (done rest : List ρ) (t t' : Thread ρ η) : Prop where
  pipes : t'.pipes.Represents
    ((rest.filter needs).reverse ++ done ++ rest.filter fun p => !needs p)
  channel : ∀ p, t'.channel p =
    if p ∈ rest ∧ needs p then { t.channel p with eventQueued := true } else t.channel p
  queue : t'.queue = t.queue ++ (rest.filter needs).map t.hpipe
  visits : t'.visits = t.visits ++ visiting needs done rest
  hpipe : t'.hpipe = t.hpipe
  nrefs : t'.nrefs = t.nrefs

variable {t' : Thread ρ η}

/-- A channel that needs no event stays where it is. -/
theorem Swept.pass (idle : needs p = false)
    (swept : Swept needs (done ++ [p]) rest { t with visits := t.visits ++ [p] } t') :
    Swept needs done (p :: rest) t t' where
  pipes := by simpa [idle] using swept.pipes
  channel q := by
    rw [swept.channel]
    by_cases same : q = p
    · simp [same, idle]
    · simp [same]
  queue := by simpa [idle] using swept.queue
  visits := by simp [swept.visits, visiting, idle]
  hpipe := swept.hpipe
  nrefs := swept.nrefs

theorem Swept.move (need : needs p = true) (fresh : p ∉ rest)
    (swept : Swept needs (p :: done) rest (t.moved done p) t') :
    Swept needs done (p :: rest) t t' where
  pipes := by simpa [need] using swept.pipes
  channel q := by
    rw [swept.channel]
    by_cases same : q = p
    · simp [same, need, fresh, Thread.moved]
    · simp [same, Thread.moved]
  queue := by simpa [need, Thread.moved] using swept.queue
  visits := by simp [swept.visits, visiting, need, Thread.moved]
  hpipe := swept.hpipe
  nrefs := swept.nrefs

theorem walk_spec (listed : t.pipes.Represents (done ++ rest))
    (idle : ∀ p ∈ done, needsEvent (t.channel p) = false)
    (needed : ∀ p ∈ rest, needsEvent (t.channel p) = needs p) :
    ∃ t', (∀ n, walk ((visiting needs done rest).length + n) rest.head? t = some t') ∧
      Swept needs done rest t t' := by
  induction rest generalizing done t with
  | nil =>
    refine ⟨t, fun n => ?_, ?_⟩
    · simp [visiting, walk]
    · exact ⟨by simpa using listed, by simp, by simp, by simp [visiting], rfl, rfl⟩
  | cons p rest ih =>
    have nodup := (perm_middle.nodup_iff).mp listed.nodup
    have fresh : p ∉ done ++ rest := (nodup_cons.mp nodup).1
    have here := needed p (mem_cons_self ..)
    cases need : needs p with
    | false =>
      rw [need] at here
      have listed' : t.pipes.Represents ((done ++ [p]) ++ rest) := by simpa using listed
      have idle' : ∀ q ∈ done ++ [p], needsEvent (t.channel q) = false := by
        intro q among
        rcases mem_append.mp among with before | last
        · exact idle q before
        · rwa [mem_singleton.mp last]
      obtain ⟨t', ends, swept⟩ := ih (t := { t with visits := t.visits ++ [p] }) listed' idle'
        fun q among => needed q (mem_cons_of_mem _ among)
      refine ⟨t', fun n => ?_, swept.pass need⟩
      rw [← ends n, visiting, if_neg (by simp [need]), length_cons, Nat.add_right_comm]
      change walk _ ((t.visit p).pipes.link p).next (t.visit p) = _
      rw [visit_idle here]
      change walk _ (t.pipes.link p).next _ = _
      rw [listed.next]
    | true =>
      rw [need] at here
      have listed' : (t.moved done p).pipes.Represents ((p :: done) ++ rest) :=
        listed.moveToHead
      have idle' : ∀ q ∈ p :: done, needsEvent ((t.moved done p).channel q) = false := by
        intro q among
        by_cases same : q = p
        · simp [Thread.moved, same, needsEvent]
        · simpa [Thread.moved, same] using idle q (mem_of_ne_of_mem same among)
      obtain ⟨t', ends, swept⟩ := ih (t := t.moved done p) listed' idle'
        fun q among => by
          have other : q ≠ p := fun same => fresh (by simp [← same, among])
          simpa [Thread.moved, other] using needed q (mem_cons_of_mem _ among)
      refine ⟨t', fun n => ?_, swept.move need fun among => fresh (by simp [among])⟩
      rw [← ends n, visiting, if_pos need, length_cons, length_append,
        Nat.add_right_comm, Nat.add_assoc done.length]
      exact walk_moved listed idle here _

/-- A channel of the list ends as `Channel.nPipeCheckProc` leaves it. -/
theorem Swept.channel_eq (swept : Swept needs done rest t t')
    (needed : ∀ p ∈ rest, needsEvent (t.channel p) = needs p) (among : p ∈ rest) :
    (t'.channel p).ret .nothing = (t.channel p).nPipeCheckProc := by
  rw [swept.channel, ← needed p among]
  by_cases need : (t.channel p).notifiable = true ∧ (t.channel p).eventQueued = false <;>
    simp [Channel.nPipeCheckProc, needsEvent, need, among]

end

/-- The loop ends. A channel is visited once, and once more for each channel behind it that
needs an event. The events are those that are needed, no reference is taken, and the list is
a permutation. -/
theorem check_proc_queues (t : Thread ρ η) (xs : List ρ) (listed : t.pipes.Represents xs)
    (flags : UInt32) :
    ∃ (t' : Thread ρ η) (seen : List ρ),
      (∀ n, nPipeCheckProc (seen.length + n) flags t =
        some (if flags &&& TCL_FILE_EVENTS = 0 then t else t')) ∧
      t'.visits = t.visits ++ seen ∧
      (∀ left p right, xs = left ++ p :: right →
        seen.count p = 1 + right.countP fun q => needsEvent (t.channel q)) ∧
      (∀ p ∈ seen, p ∈ xs) ∧
      t'.queue = t.queue ++ (xs.filter fun p => needsEvent (t.channel p)).map t.hpipe ∧
      (∀ p ∈ xs, (t'.channel p).ret .nothing = (t.channel p).nPipeCheckProc) ∧
      (∀ p, p ∉ xs → t'.channel p = t.channel p) ∧
      t'.hpipe = t.hpipe ∧ t'.nrefs = t.nrefs ∧
      ∃ xs', xs'.Perm xs ∧ t'.pipes.Represents xs' := by
  have whole : t.pipes.Represents ([] ++ xs) := listed
  obtain ⟨t', ends, swept⟩ := walk_spec whole nofun fun p _ =>
    Eq.refl (needsEvent (t.channel p))
  refine ⟨t', _, fun n => ?_, swept.visits, ?_, ?_, swept.queue, ?_, ?_, swept.hpipe, swept.nrefs,
    _, ?_, swept.pipes⟩
  · unfold nPipeCheckProc
    split
    · rfl
    · rw [listed.head, ends]
  · rintro left p right rfl
    exact count_visiting left right whole.nodup
  · exact fun p among => (mem_visiting among).resolve_left nofun
  · exact fun p among => swept.channel_eq (fun _ _ => rfl) among
  · intro p outside
    rw [swept.channel, if_neg fun h => outside h.1]
  · rw [append_nil]
    refine ((reverse_perm _).append_right _).trans ?_
    exact filter_append_perm _ xs

/-- Two channels, of which the second has an error before it is connected. -/
def two : Thread Nat Nat :=
  ⟨(DList.empty.prepend 1).prepend 0,
    fun p => if p = 0 then .new false else { Channel.new true with winerr := 1 },
    fun p => p + 10, fun _ => 2, [], []⟩

theorem two_listed : two.pipes.Represents [0, 1] :=
  (DList.represents_empty.prepend (by simp)).prepend (by simp)

theorem check_proc_queues_two :
    ∃ n t', nPipeCheckProc n 8 two = some t' ∧ t'.queue = [11] := by
  obtain ⟨t', seen, ends, -, -, -, queue, -⟩ := check_proc_queues two [0, 1] two_listed 8
  exact ⟨_, t', ends 0, queue⟩

/-- The first channel is visited twice, and no reference is taken for the event. -/
theorem first_visited_twice :
    ∃ t', nPipeCheckProc 3 8 two = some t' ∧ t'.visits = [0, 1, 0] ∧ t'.queue = [11] ∧
      t'.nrefs = two.nrefs :=
  ⟨_, rfl, rfl, rfl, rfl⟩

end Twapi.NamedPipe.Check
