import GridCatalog.Proofs.Event

/-! Runs of requests over a store in memory.

    Every turn of a run has a source and settings of its own, so a run covers documents that change
    and services that are set up anew over the same store. Which calls of the store fail, the ids
    that are fresh and the time are given by the number of the call. -/

namespace GridCatalog

/-- A request with the source and the settings that it is served with. -/
structure Turn where
  source : Source
  settings : Settings
  request : Request

/-- The service of a turn. -/
def Turn.service (t : Turn) (u : Surroundings) : Service Memory := ⟨Memory.store, t.source, t.settings, u⟩

/-- The outcome of a turn, and the world after it. -/
def Turn.serve (t : Turn) (u : Surroundings) (w : World Memory) : Except Failure Answer × World Memory :=
  (t.service u).handle t.request w

/-- The world after turns, which follow each other whether they fail or not. -/
def World.after (u : Surroundings) (w : World Memory) (turns : List Turn) : World Memory :=
  turns.foldl (fun w t => (t.serve u w).2) w

/-- The world after turns that start with an empty store. -/
def World.reached (u : Surroundings) (turns : List Turn) : World Memory :=
  (World.start Memory.empty).after u turns

/-- The turns with their outcomes. -/
def World.outcomes (u : Surroundings) : World Memory → List Turn → List (Turn × Except Failure Answer)
  | _, [] => []
  | w, t :: ts => (t, (t.serve u w).1) :: outcomes u (t.serve u w).2 ts

namespace World
variable {u : Surroundings} {w : World Memory}

/-- A service that keeps its source and its settings serves requests as turns. -/
theorem runAll_eq_after {s : Service Memory} (hs : s.store = Memory.store) (requests : List Request) :
    s.runAll w requests = w.after s.surroundings (requests.map fun q => ⟨s.source, s.settings, q⟩) := by
  obtain ⟨store, source, settings, u⟩ := s
  cases hs
  rw [after, List.foldl_map]
  rfl

theorem after_append (ts ts' : List Turn) : w.after u (ts ++ ts') = (w.after u ts).after u ts' :=
  List.foldl_append

theorem reached_append (ts ts' : List Turn) : reached u (ts ++ ts') = (reached u ts).after u ts' :=
  after_append ts ts'

end World

/-- A turn is a chain of events. -/
theorem Turn.serve_events {u : Surroundings} {w : World Memory} (keyed : w.store.EntriesKeyed) (t : Turn) :
    Relation.ReflTransGen (Event u t.request (t.serve u w).1) w (t.serve u w).2 :=
  Service.handle_events (s := t.service u) rfl keyed rfl

/-- An approval or an archiving is a single event. -/
theorem Turn.serve_event {u : Surroundings} {w : World Memory} {t : Turn} (edits : t.request.Edits) :
    Event u t.request (t.serve u w).1 w (t.serve u w).2 := by
  obtain ⟨source, settings, request⟩ := t
  cases request with
  | approve id a =>
    have served : (Turn.service ⟨source, settings, .approve id a⟩ u).handle (.approve id a) w = (_, _) := rfl
    obtain ⟨r, h, hr⟩ := Task.map_inv served
    exact hr ▸ Service.approve_event rfl h
  | archive id =>
    have served : (Turn.service ⟨source, settings, .archive id⟩ u).handle (.archive id) w = (_, _) := rfl
    obtain ⟨r, h, hr⟩ := Task.map_inv served
    exact hr ▸ Service.archive_event rfl h
  | _ => exact edits.elim

/-- What every event of a turn keeps holds after the turn. -/
theorem Turn.serve_induct {u : Surroundings} {w : World Memory} (keyed : w.store.EntriesKeyed) {t : Turn}
    {P : World Memory → Prop} (step : ∀ v v', Event u t.request (t.serve u w).1 v v' → P v → P v')
    (start : P w) : P (t.serve u w).2 := by
  have chain : ∀ v, Relation.ReflTransGen (Event u t.request (t.serve u w).1) w v → P v := fun v events => by
    induction events with
    | refl => exact start
    | tail _ he ih => exact step _ _ he ih
  exact chain _ (t.serve_events keyed)

/-- What every event keeps holds after a run. -/
theorem World.after_induct {u : Surroundings} {P : World Memory → Prop} (keyed : ∀ {w}, P w → w.store.EntriesKeyed)
    (step : ∀ {q o w w'}, Event u q o w w' → P w → P w') {w : World Memory} (start : P w) (ts : List Turn) :
    P (w.after u ts) := by
  induction ts generalizing w with
  | nil => exact start
  | cons t ts ih => exact ih (t.serve_induct (keyed start) (fun _ _ => step) start)

theorem World.keyed_after {u : Surroundings} {w : World Memory} (keyed : w.store.EntriesKeyed) (ts : List Turn) :
    (w.after u ts).store.EntriesKeyed :=
  after_induct (P := fun w => w.store.EntriesKeyed) id (fun he hw => he.keyed hw) keyed ts

theorem World.keyed_reached (u : Surroundings) (ts : List Turn) : (reached u ts).store.EntriesKeyed :=
  keyed_after (fun h => by cases h) ts

/-- The fresh ids of the calls from a number on are other ids than the given one. -/
def Surroundings.Spares (u : Surroundings) (id : String) (calls : Nat) : Prop := ∀ n, calls ≤ n → u.freshId n ≠ id

theorem Surroundings.Spares.mono {u : Surroundings} {id : String} {c c' : Nat} (h : u.Spares id c) (hc : c ≤ c') :
    u.Spares id c' := fun n hn => h n (Nat.le_trans hc hn)

theorem Surroundings.Spares.of_injective {u : Surroundings} (hu : Function.Injective u.freshId) {n c : Nat}
    (issued : n < c) : u.Spares (u.freshId n) c := by
  intro k hk heq
  have := hu heq
  omega

/-- What holds of a stored entry, and is kept when it is approved or archived, holds for as long as the entry is
    stored. -/
theorem World.entry_induct {u : Surroundings} {w : World Memory} {id : String} {P : Entry → Prop}
    (approve : ∀ e d t, P e → P ((Service.approvedEntry e d).touched t))
    (archive : ∀ e t t', P e → P ((Entry.archivedAt e t).touched t')) (keyed : w.store.EntriesKeyed)
    (spared : u.Spares id w.calls) (start : ∀ e, w.store.entries.get? id = some e → P e) (ts : List Turn) {e : Entry}
    (stored : (w.after u ts).store.entries.get? id = some e) : P e := by
  have all : (w.after u ts).store.EntriesKeyed ∧ u.Spares id (w.after u ts).calls ∧
      ∀ e, (w.after u ts).store.entries.get? id = some e → P e := by
    refine after_induct (P := fun v => v.store.EntriesKeyed ∧ u.Spares id v.calls ∧
      ∀ e, v.store.entries.get? id = some e → P e) And.left ?_ ⟨keyed, spared, start⟩ ts
    rintro q o v v' he ⟨keyed, spared, hP⟩
    refine ⟨he.keyed keyed, spared.mono he.calls_le, fun e hstored => ?_⟩
    rcases he.entry_inv hstored with h | ⟨_, n, _, _, _, -, hn, hid, -⟩ | ⟨k, _, t, f, d, -, -, hf, -, hid, rfl⟩ |
      ⟨k, t, t', f, -, -, hf, hid, rfl⟩
    · exact hP e h
    · exact absurd hid.symm (spared n hn)
    · rw [← keyed hf, ← hid] at hf
      exact approve f _ t (hP f hf)
    · rw [← keyed hf, ← hid] at hf
      exact archive f t t' (hP f hf)
  exact all.2.2 e stored

/-! ### A small world -/

/-- Surroundings in which ids count the calls, some calls fail and time stands still. -/
def Surroundings.counting (failing : List Nat) : Surroundings where
  fault n _ := if n ∈ failing then some (.unavailable "offline") else none
  freshId n := String.ofList (List.replicate (n + 1) 'i')
  clock _ := default

theorem Surroundings.counting_injective (failing : List Nat) : Function.Injective (counting failing).freshId := by
  intro n k h
  have := congrArg List.length (String.ofList_injective h)
  simpa using this

/-- A request that is served with the default settings and a document of two columns. -/
def Turn.ofRequest (q : Request) : Turn where
  source := ⟨.uploadedFile, fun _ => .ok [⟨"people", true⟩],
    fun _ _ _ => .ok [["name", "city"], ["Ann", "Rome"], ["Bob", "Oslo"], ["Cleo"]]⟩
  settings := .default
  request := q

/-- An approval that swaps the columns, and one that gives both the same index. -/
def Turn.approvals : List Turn := [
  .ofRequest (.approve "ii" ⟨"towns", [⟨0, 4, "who", 0, true⟩, ⟨1, 3, "town", 0, false⟩, ⟨1, 4, "city", 0, false⟩]⟩),
  .ofRequest (.approve "ii" ⟨"towns", [⟨3, 1, "town", 2, false⟩, ⟨4, 1, "who", 0, false⟩]⟩)]

end GridCatalog
