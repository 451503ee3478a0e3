import LanScan.ForStd.Fifo
import LanScan.Native.Host

/-!
# Lemmas about stream events

How the order of events, the hosts among them and the number of nulls change
when one more event is posted.  Both scanners use them.
-/

namespace LanScan

variable {events : List Event}

/-- A null may follow anything. -/
theorem NoHostAfterNull.append_null (h : NoHostAfterNull events) :
    NoHostAfterNull (events ++ [.null]) :=
  List.pairwise_append.mpr
    ⟨h, List.pairwise_singleton _ _, fun _ _ _ hlater _ => List.mem_singleton.mp hlater⟩

/-- A host may follow as long as there is no null. -/
theorem NoHostAfterNull.append_host (h : NoHostAfterNull events) (hnull : .null ∉ events)
    (host : Host) : NoHostAfterNull (events ++ [.host host]) := by
  refine List.pairwise_append.mpr ⟨h, List.pairwise_singleton _ _, ?_⟩
  intro earlier hearlier _ _ heq
  rw [heq] at hearlier
  exact absurd hearlier hnull

/-- What a queue has delivered keeps the order of what was posted. -/
theorem NoHostAfterNull.delivered {q : Fifo Event} (h : NoHostAfterNull q.all) :
    NoHostAfterNull q.delivered :=
  Fifo.pairwise_delivered h

/-- The hosts among the events are those of both parts. -/
@[simp] theorem hostsOf_append (events events' : List Event) :
    hostsOf (events ++ events') = hostsOf events ++ hostsOf events' :=
  List.filterMap_append

/-- The hosts among hosts are these. -/
@[simp] theorem hostsOf_map_host (hosts : List Host) : hostsOf (hosts.map .host) = hosts := by
  induction hosts with
  | nil => rfl
  | cons host hosts ih => exact congrArg (host :: ·) ih

/-- A null counts one. -/
@[simp] theorem nullCount_append_null (events : List Event) :
    nullCount (events ++ [.null]) = nullCount events + 1 := by
  simp only [nullCount, List.count_append, List.count_singleton_self]

/-- A host counts none. -/
@[simp] theorem nullCount_append_host (events : List Event) (host : Host) :
    nullCount (events ++ [.host host]) = nullCount events := by
  have hne : (Event.host host == .null) = false := rfl
  simp only [nullCount, List.count_append, List.count_singleton, hne]
  rfl

/-- Hosts count none. -/
@[simp] theorem nullCount_append_hosts (events : List Event) (hosts : List Host) :
    nullCount (events ++ hosts.map .host) = nullCount events := by
  induction hosts generalizing events with
  | nil => simp
  | cons host hosts ih =>
    rw [List.map_cons, ← List.singleton_append, ← List.append_assoc, ih, nullCount_append_host]

/-- Events in order are hosts and then nulls. -/
theorem NoHostAfterNull.exists_hosts (h : NoHostAfterNull events) :
    ∃ hosts : List Host, events = hosts.map .host ++ List.replicate (nullCount events) .null := by
  induction events with
  | nil => exact ⟨[], rfl⟩
  | cons e rest ih =>
    obtain ⟨hafter, hrest⟩ := List.pairwise_cons.mp h
    cases e with
    | host host =>
      obtain ⟨hosts, heq⟩ := ih hrest
      have hcount : nullCount (.host host :: rest) = nullCount rest := by simp [nullCount]
      refine ⟨host :: hosts, ?_⟩
      rw [hcount, List.map_cons, List.cons_append, ← heq]
    | null =>
      -- nothing but nulls follows
      have hnulls : ∀ e ∈ rest, e = .null := fun e he => hafter e he rfl
      have hall : ∀ e ∈ Event.null :: rest, e = .null := List.forall_mem_cons.mpr ⟨rfl, hnulls⟩
      refine ⟨[], ?_⟩
      rw [List.map_nil, List.nil_append, nullCount,
        List.count_eq_length.mpr fun e he => (hall e he).symm]
      exact List.eq_replicate_of_mem hall

end LanScan
