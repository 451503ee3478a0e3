import Mathlib.Data.List.Pairwise

/-!
# First-in, first-out message queues

A main-thread looper as a value: closures are posted at the back of `queue` and
run from the front, which moves them to `delivered`.  The order of delivery is
the order of posting, so a statement about what has been delivered follows from
one about `all`, the messages posted so far.
-/

universe u

/-- Messages posted but not yet run, and messages already run, oldest first. -/
structure Fifo (α : Type u) where
  queue : List α
  delivered : List α
  deriving DecidableEq, Repr

namespace Fifo

variable {α : Type u}

/-- A queue to which nothing has been posted. -/
def empty : Fifo α := ⟨[], []⟩

/-- Post a message at the back. -/
def post (q : Fifo α) (a : α) : Fifo α := { q with queue := q.queue ++ [a] }

/-- Run the message at the front. -/
def deliver (q : Fifo α) : Option (Fifo α) :=
  match q.queue with
  | [] => none
  | a :: rest => some ⟨rest, q.delivered ++ [a]⟩

/-- Every message posted so far, in the order of posting. -/
def all (q : Fifo α) : List α := q.delivered ++ q.queue

/-- Nothing has been posted to an empty queue. -/
@[simp] theorem all_empty : (empty : Fifo α).all = [] := rfl

/-- What is posted comes behind everything before it. -/
@[simp] theorem all_post (q : Fifo α) (a : α) : (q.post a).all = q.all ++ [a] := by
  simp only [post, all, List.append_assoc]

/-- A post makes the queue longer by one. -/
@[simp] theorem length_queue_post (q : Fifo α) (a : α) :
    (q.post a).queue.length = q.queue.length + 1 := by
  simp only [post, List.length_append, List.length_singleton]

/-- Delivery does not change what has been posted. -/
theorem all_of_deliver {q q' : Fifo α} (h : q.deliver = some q') : q'.all = q.all := by
  unfold deliver at h
  split at h
  · exact nomatch h
  · rename_i a rest hq
    cases h
    simp only [all, hq, List.append_assoc, List.singleton_append]

/-- Delivery shortens the queue by one. -/
theorem length_queue_of_deliver {q q' : Fifo α} (h : q.deliver = some q') :
    q.queue.length = q'.queue.length + 1 := by
  unfold deliver at h
  split at h
  · exact nomatch h
  · rename_i a rest hq
    cases h
    simp only [hq, List.length_cons]

/-- Nothing is delivered only from an empty queue. -/
theorem deliver_eq_none_iff {q : Fifo α} : q.deliver = none ↔ q.queue = [] := by
  unfold deliver
  split <;> simp_all

/-- Once the queue is empty everything posted has been delivered. -/
theorem delivered_eq_all {q : Fifo α} (h : q.queue = []) : q.delivered = q.all := by
  simp only [all, h, List.append_nil]

/-- What has been delivered is an initial part of what has been posted. -/
theorem delivered_sublist_all (q : Fifo α) : q.delivered.Sublist q.all :=
  List.sublist_append_left _ _

/-- An order property of everything posted holds of what has been delivered. -/
theorem pairwise_delivered {R : α → α → Prop} {q : Fifo α} (h : q.all.Pairwise R) :
    q.delivered.Pairwise R :=
  h.sublist q.delivered_sublist_all

end Fifo
