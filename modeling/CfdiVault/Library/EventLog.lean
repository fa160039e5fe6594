import Mathlib.Data.List.Basic
import Mathlib.Logic.Function.Basic

/-!
# Logs of state changes

A log in which each event records a state before and a state after, and which several
keys share without naming themselves in their events.  `Chain` is the history of one key:
it starts from no state, every event goes on from the state of the one before, and it ends
in the current state.  A log explains the states of its keys when its events can be told
apart into one chain for each of them (`Explains`); appending the event of a change keeps
it so.
-/

namespace CfdiVault

namespace EventLog

variable {κ σ ε : Type} (before : ε → Option σ) (after : ε → σ)

/-- Events linked from state to state, and the state they end in. -/
inductive Chain : List ε → σ → Prop
  | start {event : ε} (h : before event = none) : Chain [event] (after event)
  | next {events : List ε} {state : σ} {event : ε} (h : Chain events state)
      (hlink : before event = some state) (hchanges : state ≠ after event) :
      Chain (events ++ [event]) (after event)

/-- The history of one key: a chain to its state, and nothing where it has none. -/
def History (events : List ε) : Option σ → Prop
  | none => events = []
  | some state => Chain before after events state

variable [DecidableEq κ]

/-- The events under a key. -/
def under (key : κ) (tagged : List (κ × ε)) : List ε :=
  (tagged.filter fun item => item.1 = key).map (·.2)

/-- The events of a log can be told apart into the histories of its keys. -/
def Explains (events : List ε) (state : κ → Option σ) : Prop :=
  ∃ tagged : List (κ × ε), tagged.map (·.2) = events ∧
    ∀ key, History before after (under key tagged) (state key)

variable {before after} {events : List ε} {state state' : κ → Option σ}

theorem under_append (key : κ) (tagged : List (κ × ε)) (item : κ × ε) :
    under key (tagged ++ [item]) = under key tagged ++ if item.1 = key then [item.2] else [] := by
  unfold under
  rw [List.filter_append, List.map_append, List.filter_singleton]
  split_ifs with h <;> simp [h]

theorem Explains.empty : Explains before after [] fun _ : κ => none :=
  ⟨[], rfl, fun _ => rfl⟩

/-- The event of a change goes behind the history of its key. -/
theorem Explains.append {key : κ} {event : ε} (h : Explains before after events state)
    (hbefore : before event = state key) (hchanges : state key ≠ some (after event))
    (hkey : state' key = some (after event)) (hothers : ∀ other, other ≠ key → state' other = state other) :
    Explains before after (events ++ [event]) state' := by
  obtain ⟨tagged, hevents, hhistory⟩ := h
  refine ⟨tagged ++ [(key, event)], by rw [List.map_append, hevents]; rfl, fun other => ?_⟩
  rw [under_append]
  by_cases hother : other = key
  · subst hother
    rw [if_pos rfl, hkey]
    have hold := hhistory other
    cases hstate : state other with
    | none =>
        rw [hstate] at hold hbefore
        rw [show under other tagged = [] from hold]
        exact .start hbefore
    | some previous =>
        rw [hstate] at hold hbefore hchanges
        exact .next hold hbefore fun hsame => hchanges (congrArg some hsame)
  · rw [if_neg (Ne.symm hother), List.append_nil, hothers other hother]
    exact hhistory other

/-- A tag is the key of a state. -/
theorem History.isSome {found : Option σ} (h : History before after events found) (hne : events ≠ []) :
    found.isSome := by
  cases found with
  | none => exact absurd h hne
  | some state => rfl

theorem mem_under {key : κ} {event : ε} {tagged : List (κ × ε)} :
    event ∈ under key tagged ↔ (key, event) ∈ tagged := by
  simp [under]

end EventLog

end CfdiVault
