import Mathlib.Tactic.Common

/-!
Decoding a stream of frames that comes in chunks.

A `Framing` says what the next whole frame of an input is: how long, what it
decodes to, the state after it, and a tag. Whether there is one, and which, is
settled by the frame itself and not by what follows it.

* `Framing.drain` — decode frame by frame, stopping after a frame whose tag is
  not one to go on after.
* `Framing.feed` — put a chunk after what is pending, and drain.
* `Framing.Flows` — every whole frame but the last has a tag to go on after.
* `Framing.Whole` — whole frames behind each other, which are drained to their ends.
* `feed_chunks`, `flows_of_feed_nil` — exactly the inputs that flow are drained
  alike however they are cut into chunks.
-/

namespace Twapi.Lib

open List

/-- A whole frame at the head of an input. -/
structure Frame (σ β τ : Type) where
  state : σ
  output : List β
  tag : τ
  size : Nat
deriving DecidableEq

structure Framing (σ α β τ : Type) where
  next : σ → List α → Option (Frame σ β τ)
  pos : ∀ {s x f}, next s x = some f → 0 < f.size
  fits : ∀ {s x f}, next s x = some f → f.size ≤ x.length
  stable : ∀ {s x f} (y), next s x = some f → next s (x ++ y) = some f

/-- What has been decoded so far, and the input that is left. -/
structure Flow (σ α β : Type) where
  state : σ
  output : List β
  pending : List α
deriving DecidableEq

/-- `out` was decoded before `d`. -/
def Flow.after {σ α β : Type} (d : Flow σ α β) (out : List β) : Flow σ α β :=
  { d with output := out ++ d.output }

namespace Framing

variable {σ α β τ : Type} (F : Framing σ α β τ)

theorem rest_lt {s : σ} {x : List α} {f : Frame σ β τ} (h : F.next s x = some f) :
    (x.drop f.size).length < x.length := by
  have pos := F.pos h
  have fits := F.fits h
  rw [length_drop]
  omega

/-- The tags of the whole frames of an input, in order. -/
def tags (s : σ) (x : List α) : List τ :=
  match _h : F.next s x with
  | none => []
  | some f => f.tag :: tags f.state (x.drop f.size)
termination_by x.length
decreasing_by exact F.rest_lt _h

variable (go : τ → Bool)

/-- Decode until no whole frame is left, or one says to stop. -/
def drain (s : σ) (x : List α) : Flow σ α β :=
  match _h : F.next s x with
  | none => ⟨s, [], x⟩
  | some f =>
    if go f.tag then (drain f.state (x.drop f.size)).after f.output
    else ⟨f.state, f.output, x.drop f.size⟩
termination_by x.length
decreasing_by exact F.rest_lt _h

/-- Put a chunk after what is pending, and drain. -/
def feed (d : Flow σ α β) (chunk : List α) : Flow σ α β :=
  (F.drain go d.state (d.pending ++ chunk)).after d.output

/-! ### Unfolding by the next frame -/

variable {F go} {s : σ} {x : List α} {f : Frame σ β τ}

theorem tags_none (h : F.next s x = none) : F.tags s x = [] := by
  rw [tags]
  split
  · rfl
  · rename_i f hf
    cases h.symm.trans hf

theorem tags_some (h : F.next s x = some f) :
    F.tags s x = f.tag :: F.tags f.state (x.drop f.size) := by
  rw [tags]
  split
  · rename_i hf
    cases h.symm.trans hf
  · rename_i g hg
    cases h.symm.trans hg
    rfl

theorem drain_none (h : F.next s x = none) : F.drain go s x = ⟨s, [], x⟩ := by
  rw [drain]
  split
  · rfl
  · rename_i f hf
    cases h.symm.trans hf

theorem drain_some (h : F.next s x = some f) :
    F.drain go s x = if go f.tag then (F.drain go f.state (x.drop f.size)).after f.output
      else ⟨f.state, f.output, x.drop f.size⟩ := by
  rw [drain]
  split
  · rename_i hf
    cases h.symm.trans hf
  · rename_i g hg
    cases h.symm.trans hg
    rfl

theorem drain_go (h : F.next s x = some f) (goes : go f.tag = true) :
    F.drain go s x = (F.drain go f.state (x.drop f.size)).after f.output := by
  rw [drain_some h, if_pos goes]

theorem drain_stop (h : F.next s x = some f) (stops : go f.tag = false) :
    F.drain go s x = ⟨f.state, f.output, x.drop f.size⟩ := by
  rw [drain_some h, stops, if_neg Bool.false_ne_true]

/-- Nothing is not a frame. -/
theorem next_nil : F.next s [] = none := by
  cases h : F.next s [] with
  | none => rfl
  | some f =>
    have pos := F.pos h
    have fits := F.fits h
    rw [length_nil] at fits
    omega

theorem drain_nil : F.drain go s [] = ⟨s, [], []⟩ := drain_none next_nil

/-- The first frame is the same with more input behind it. -/
theorem next_append (y : List α) (h : F.next s x = some f) :
    F.next s (x ++ y) = some f ∧ (x ++ y).drop f.size = x.drop f.size ++ y :=
  ⟨F.stable y h, drop_append_of_le_length (F.fits h)⟩

theorem after_after (d : Flow σ α β) (u v : List β) : (d.after u).after v = d.after (v ++ u) := by
  simp [Flow.after, append_assoc]

/-! ### Whole frames -/

/-- The input is whole frames to go on after, one behind the other. -/
inductive Whole (F : Framing σ α β τ) (go : τ → Bool) : σ → List α → List β → σ → Prop where
  | nil (s : σ) : Whole F go s [] [] s
  | cons {s t : σ} {f : Frame σ β τ} {x y : List α} {out : List β} : F.next s x = some f →
      f.size = x.length → go f.tag = true → Whole F go f.state y out t →
      Whole F go s (x ++ y) (f.output ++ out) t

theorem Whole.drain {t : σ} {out : List β} (whole : Whole F go s x out t) :
    F.drain go s x = ⟨t, out, []⟩ := by
  induction whole with
  | nil s => exact drain_nil
  | cons next size goes _ ih =>
    obtain ⟨head, behind⟩ := next_append _ next
    rw [size, drop_length, nil_append, ← size] at behind
    rw [drain_go head goes, behind, ih]
    rfl

theorem Whole.tags_go {t : σ} {out : List β} (whole : Whole F go s x out t) :
    ∀ u ∈ F.tags s x, go u = true := by
  induction whole with
  | nil s =>
    rw [tags_none next_nil]
    exact fun u mem => nomatch mem
  | cons next size goes _ ih =>
    obtain ⟨head, behind⟩ := next_append _ next
    rw [size, drop_length, nil_append, ← size] at behind
    rw [tags_some head, behind]
    exact forall_mem_cons.mpr ⟨goes, ih⟩

/-! ### Draining in two goes -/

variable (F go)

/-- Every whole frame but the last has a tag to go on after. -/
def Flows (s : σ) (x : List α) : Prop := ∀ t ∈ (F.tags s x).dropLast, go t = true

variable {F go}

theorem Flows.tail (h : F.next s x = some f) (flows : F.Flows go s x) :
    F.Flows go f.state (x.drop f.size) := by
  intro t ht
  refine flows t ?_
  rw [tags_some h]
  exact mem_of_mem_tail (by
    cases hts : F.tags f.state (x.drop f.size) with
    | nil => rw [hts] at ht; cases ht
    | cons u us => rw [hts] at ht; simpa using ht)

/-- A frame that stops the draining has no whole frame after it. -/
theorem Flows.last (h : F.next s x = some f) (flows : F.Flows go s x) (stops : go f.tag = false) :
    F.next f.state (x.drop f.size) = none := by
  cases hn : F.next f.state (x.drop f.size) with
  | none => rfl
  | some g =>
    have goes := flows f.tag (by rw [tags_some h, tags_some hn]; exact mem_cons_self)
    rw [stops] at goes
    cases goes

/-- If the input flows, what is drained from it is what is drained from its
first part and then from the rest. -/
theorem drain_append (x y : List α) {s : σ} (flows : F.Flows go s (x ++ y)) :
    let d := F.drain go s x
    F.drain go s (x ++ y) = (F.drain go d.state (d.pending ++ y)).after d.output := by
  induction hx : x.length using Nat.strongRecOn generalizing s x with
  | _ n ih =>
    cases h : F.next s x with
    | none =>
      rw [drain_none h]
      rfl
    | some f =>
      obtain ⟨hxy, split⟩ := next_append y h
      have tail := flows.tail hxy
      rw [split] at tail
      have two := ih _ (hx ▸ F.rest_lt h) (x.drop f.size) tail rfl
      cases goes : go f.tag with
      | true =>
        rw [drain_go hxy goes, split, two, drain_go h goes]
        exact after_after _ _ _
      | false =>
        have last := flows.last hxy goes
        rw [split] at last
        rw [drain_stop hxy goes, drain_stop h goes, split]
        simp [drain_none last, Flow.after]

/-- What flows as a whole flows after a part of it was drained. -/
theorem Flows.rest (x y : List α) {s : σ} (flows : F.Flows go s (x ++ y)) :
    F.Flows go (F.drain go s x).state ((F.drain go s x).pending ++ y) := by
  induction hx : x.length using Nat.strongRecOn generalizing s x with
  | _ n ih =>
    cases h : F.next s x with
    | none =>
      rw [drain_none h]
      exact flows
    | some f =>
      obtain ⟨hxy, split⟩ := next_append y h
      have tail := flows.tail hxy
      rw [split] at tail
      cases goes : go f.tag with
      | true =>
        rw [drain_go h goes]
        exact ih _ (hx ▸ F.rest_lt h) (x.drop f.size) tail rfl
      | false =>
        rw [drain_stop h goes]
        exact tail

/-- Draining makes progress where there is a whole frame. -/
theorem drain_pending_lt (h : F.next s x = some f) :
    (F.drain go s x).pending.length < x.length := by
  induction hx : x.length using Nat.strongRecOn generalizing s x f with
  | _ n ih =>
    subst hx
    have rest := F.rest_lt h
    rw [drain_some h]
    split
    · cases h' : F.next f.state (x.drop f.size) with
      | none =>
        rw [drain_none h']
        exact rest
      | some g => exact Nat.lt_trans (ih _ rest h' rfl) rest
    · exact rest

theorem drain_pending_le (s : σ) (x : List α) : (F.drain go s x).pending.length ≤ x.length := by
  cases h : F.next s x with
  | none => exact Nat.le_of_eq (by rw [drain_none h])
  | some f => exact Nat.le_of_lt (drain_pending_lt h)

/-- An input flows exactly when draining it leaves no whole frame. -/
theorem flows_iff_drained :
    F.Flows go s x ↔ F.next (F.drain go s x).state (F.drain go s x).pending = none := by
  induction hx : x.length using Nat.strongRecOn generalizing s x with
  | _ n ih =>
    subst hx
    cases h : F.next s x with
    | none =>
      rw [drain_none h]
      refine ⟨fun _ => h, fun _ t ht => ?_⟩
      rw [tags_none h] at ht
      cases ht
    | some f =>
      have rest := ih _ (F.rest_lt h) (s := f.state) (x := x.drop f.size) rfl
      cases goes : go f.tag with
      | true =>
        rw [drain_go h goes]
        refine Iff.trans ⟨.tail h, fun flows t ht => ?_⟩ rest
        rw [tags_some h] at ht
        cases hts : F.tags f.state (x.drop f.size) with
        | nil =>
          rw [hts] at ht
          cases ht
        | cons u us =>
          rw [hts, dropLast_cons_cons] at ht
          cases mem_cons.mp ht with
          | inl first => exact first ▸ goes
          | inr later => exact flows t (hts ▸ later)
      | false =>
        rw [drain_stop h goes]
        refine ⟨fun flows => flows.last h goes, fun last t ht => ?_⟩
        rw [tags_some h, tags_none last] at ht
        cases ht

/-! ### Feeding chunks -/

theorem feed_pending_le (d : Flow σ α β) (chunk : List α) :
    (F.feed go d chunk).pending.length ≤ d.pending.length + chunk.length := by
  rw [← length_append]
  exact drain_pending_le d.state (d.pending ++ chunk)

theorem feed_after (d : Flow σ α β) (out : List β) (chunk : List α) :
    F.feed go (d.after out) chunk = (F.feed go d chunk).after out :=
  (after_after _ d.output out).symm

/-- What was decoded before has no part in what is decoded next. -/
theorem foldl_feed_after (chunks : List (List α)) (d : Flow σ α β) (out : List β) :
    chunks.foldl (F.feed go) (d.after out) = (chunks.foldl (F.feed go) d).after out := by
  induction chunks generalizing d with
  | nil => rfl
  | cons c chunks ih =>
    rw [foldl_cons, foldl_cons, feed_after, ih]

theorem feed_append (d : Flow σ α β) (a b : List α)
    (flows : F.Flows go d.state (d.pending ++ (a ++ b))) :
    F.feed go (F.feed go d a) b = F.feed go d (a ++ b) := by
  rw [← append_assoc] at flows
  have two := drain_append (d.pending ++ a) b flows
  simp only [feed, ← append_assoc, two, after_after]
  rfl

variable {d : Flow σ α β}

theorem Flows.feed {a b : List α} (flows : F.Flows go d.state (d.pending ++ (a ++ b))) :
    F.Flows go (F.feed go d a).state ((F.feed go d a).pending ++ b) := by
  rw [← append_assoc] at flows
  exact .rest (d.pending ++ a) b flows

/-- Chunks of an input that flows are as good as one chunk. -/
theorem foldl_feed (c : List α) (chunks : List (List α)) (d : Flow σ α β)
    (flows : F.Flows go d.state (d.pending ++ (c ++ chunks.flatten))) :
    chunks.foldl (F.feed go) (F.feed go d c) = F.feed go d (c ++ chunks.flatten) := by
  induction chunks generalizing c d with
  | nil => simp
  | cons b chunks ih =>
    rw [flatten_cons] at flows ⊢
    rw [foldl_cons, ih b (F.feed go d c) flows.feed, feed_append d c _ flows]

/-- However an input that flows is cut into chunks, it is drained alike. -/
theorem feed_chunks {x : List α} (flows : F.Flows go d.state (d.pending ++ x))
    {chunks : List (List α)} (nonempty : chunks ≠ []) (whole : chunks.flatten = x) :
    chunks.foldl (F.feed go) d = F.feed go d x := by
  obtain ⟨c, cs, rfl⟩ := exists_cons_of_ne_nil nonempty
  rw [flatten_cons] at whole
  rw [foldl_cons, foldl_feed c cs d (whole ▸ flows), whole]

/-- An input flows if an empty chunk after it leaves what is pending as it is. -/
theorem flows_of_feed_nil {x : List α}
    (same : (F.feed go (F.feed go d x) []).pending = (F.feed go d x).pending) :
    F.Flows go d.state (d.pending ++ x) := by
  rw [flows_iff_drained]
  cases h : F.next (F.drain go d.state (d.pending ++ x)).state
      (F.drain go d.state (d.pending ++ x)).pending with
  | none => rfl
  | some f =>
    have shorter : (F.drain go _ _).pending.length < _ := drain_pending_lt h
    have equal := congrArg length same
    simp only [feed, Flow.after, append_nil] at equal
    omega

end Framing

end Twapi.Lib
