import PracticeSwift.Library.KeyedList
import PracticeSwift.MovieSearch.Search

/-!
# The search history

The handler of a data task calls its completion on four paths, and the completion queues the block
that records the search.  A submitted text is at any moment the term of a task under way, of a
queued block or of a record, and of one of them only, so that in the end the records are the texts
submitted.
-/

open Transition

namespace PracticeSwift.MovieSearch.SearchScreen

/-- The non-empty texts of the clicks, oldest first. -/
def submissions : List Event → List String
  | [] => []
  | .clicked (some searchTerm) :: past =>
    if searchTerm.isEmpty then submissions past else submissions past ++ [searchTerm]
  | _ :: past => submissions past

/-- How often `completion` has been called for a search. -/
def completions (search : ℕ) : List Event → ℕ
  | [] => 0
  | .responded search' result :: past =>
    (if search' = search then (SearchAPI.handler result).length else 0) + completions search past
  | _ :: past => completions search past

/-- Every path of the handler calls `completion` once. -/
theorem completions_eq_count (search : ℕ) (past : List Event) :
    completions search past = ((responses past).map Prod.fst).count search := by
  induction past with
  | nil => rfl
  | cons e past ih =>
    cases e with
    | clicked => exact ih
    | handled => exact ih
    | responded search' result =>
      rw [completions, SearchAPI.handler_eq, ih, responses, List.map_append, List.count_append,
        Nat.add_comm]
      by_cases h : search' = search <;> simp [h]

/-- Every search is under way or has completed once, and every submitted text is the term of a
record, of a queued block or of a task. -/
structure Recorded (past : List Event) (s : SearchScreen) : Prop where
  submitted : s.submitted = (submissions past).length
  once : ∀ k, completions k past + (s.tasks.map Prod.fst).count k = if k < s.submitted then 1 else 0
  terms : (s.searchHistory.map Record.term ++ s.queue.map Block.term ++ s.tasks.map Prod.snd).Perm
    (submissions past)

theorem Recorded.clicked {past : List Event} {s : SearchScreen} (h : Recorded past s)
    (text : Option String) :
    Recorded (.clicked text :: past) (s.searchBarSearchButtonClicked text) := by
  cases text with
  | none => exact ⟨h.submitted, h.once, h.terms⟩
  | some searchTerm =>
    unfold searchBarSearchButtonClicked
    by_cases hempty : searchTerm.isEmpty = true
    · simp only [if_pos hempty]
      refine ⟨?_, h.once, ?_⟩
      · rw [submissions, if_pos hempty]
        exact h.submitted
      · rw [submissions, if_pos hempty]
        exact h.terms
    · simp only [if_neg hempty]
      refine ⟨?_, fun k => ?_, ?_⟩
      · rw [submissions, if_neg hempty, List.length_append, ← h.submitted]
        rfl
      · have hk := h.once k
        simp only [completions, List.map_append, List.count_append, List.map_cons, List.map_nil,
          List.count_singleton, beq_iff_eq]
        by_cases heq : s.submitted = k
        · subst heq
          rw [if_neg (lt_irrefl _)] at hk
          rw [if_pos rfl, if_pos (Nat.lt_succ_self _)]
          omega
        · rw [if_neg heq, ← Nat.add_assoc, hk]
          exact if_congr (by omega) rfl rfl
      · rw [submissions, if_neg hempty, List.map_append, ← List.append_assoc]
        exact h.terms.append_right _

/-- The task that answers is the only one of its number. -/
theorem perm_tasks {tasks : List (ℕ × String)} {search : ℕ} {term : String}
    (hpending : tasks.lookup search = some term) (hone : (tasks.map Prod.fst).count search = 1) :
    tasks.Perm ((search, term) :: tasks.filter fun task => task.1 ≠ search) := by
  obtain ⟨before, after, rfl, hbefore⟩ := List.lookup_eq_some_iff.1 hpending
  rw [List.map_append, List.count_append, List.map_cons, List.count_cons_self] at hone
  have hnone : ∀ l : List (ℕ × String), (l.map Prod.fst).count search = 0 →
      l.filter (fun task => task.1 ≠ search) = l :=
    fun l hl => List.filter_key_ne_of_notMem (List.count_eq_zero.1 hl)
  rw [List.filter_append, List.filter_cons_of_neg (by simp), hnone before (by omega),
    hnone after (by omega)]
  exact List.perm_middle

theorem Recorded.responded {past : List Event} {s : SearchScreen} (h : Recorded past s)
    {search : ℕ} {term : String} (result : URLSession.Result)
    (hpending : s.tasks.lookup search = some term) :
    Recorded (.responded search result :: past)
      { s with
        tasks := s.tasks.filter fun task => task.1 ≠ search
        queue := s.queue ++ [⟨search, term, SearchAPI.movies result⟩] } := by
  have hmem : search ∈ s.tasks.map Prod.fst :=
    (List.isSome_lookup_iff search s.tasks).1 (Option.isSome_iff_exists.2 ⟨term, hpending⟩)
  have hone : (s.tasks.map Prod.fst).count search = 1 := by
    have hpos := List.count_pos_iff.2 hmem
    have hsearch := h.once search
    split_ifs at hsearch <;> omega
  have hperm := perm_tasks hpending hone
  refine ⟨h.submitted, fun k => ?_, ?_⟩
  · have hk := h.once k
    rw [(hperm.map Prod.fst).count_eq, List.map_cons] at hk
    rw [completions, SearchAPI.handler_eq]
    show _ + ((s.tasks.filter fun task => task.1 ≠ search).map Prod.fst).count k =
      if k < s.submitted then 1 else 0
    by_cases heq : search = k
    · subst heq
      rw [List.count_cons_self] at hk
      rw [if_pos rfl, List.length_singleton]
      omega
    · rw [List.count_cons_of_ne heq] at hk
      rw [if_neg heq, Nat.zero_add]
      exact hk
  · refine List.Perm.trans ?_ h.terms
    rw [List.map_append, List.map_cons, List.map_nil, ← List.append_assoc, List.append_assoc]
    exact (hperm.map Prod.snd).symm.append_left _

theorem Recorded.step {past : List Event} {s s' : SearchScreen} {e : Event} (h : Recorded past s)
    (hstep : s.step e = some s') : Recorded (e :: past) s' := by
  cases e with
  | clicked text =>
    obtain rfl := Option.some.inj hstep
    exact h.clicked text
  | responded search result =>
    have hs : Step s (.responded search result) s' := step_cases hstep
    cases hs with
    | responded _ pending => exact h.responded result pending
  | handled timestamp =>
    have hs : Step s (.handled timestamp) s' := step_cases hstep
    cases hs with
    | @handled block queue _ queued =>
      refine ⟨h.submitted, h.once, ?_⟩
      have hterms := h.terms
      rw [queued, List.map_cons] at hterms
      rw [List.map_append, List.map_cons, List.map_nil, List.append_assoc (List.map _ _)]
      exact hterms

theorem recorded_of_run {past : List Event} {s : SearchScreen} (h : system.Run past s) :
    Recorded past s := by
  apply h.invariant
  · rintro _ rfl
    exact ⟨rfl, fun k => rfl, List.Perm.refl _⟩
  · exact fun past s e s' _ hs hstep => hs.step hstep

/-- In every run, a submitted search has called its completion once if it has been answered and not
at all otherwise; and when every search has been answered and every block has run, the terms of the
records are the texts submitted. -/
theorem history_complete {past : List Event} {s : SearchScreen} (h : system.Run past s) :
    s.submitted = (submissions past).length ∧
      (∀ search < s.submitted, completions search past =
        if search ∈ (responses past).map Prod.fst then 1 else 0) ∧
      (s.tasks = [] → s.queue = [] →
        (s.searchHistory.map Record.term).Perm (submissions past)) := by
  have hs := recorded_of_run h
  refine ⟨hs.submitted, fun search hsearch => ?_, fun htasks hqueue => ?_⟩
  · have hone := hs.once search
    rw [if_pos hsearch] at hone
    have hcount := completions_eq_count search past
    split_ifs with hanswered
    · have hpos := List.count_pos_iff.2 hanswered
      omega
    · rw [hcount, List.count_eq_zero.2 hanswered]
  · have hterms := hs.terms
    rw [htasks, hqueue, List.map_nil, List.map_nil, List.append_nil, List.append_nil] at hterms
    exact hterms

/-- Two searches for the same text and one that fails, answered out of order. -/
theorem history_complete_out_of_order :
    ∃ s, system.Run [.handled 2, .handled 1, .handled 0, .responded 0 (found "Up"),
        .responded 1 ⟨none, none, true⟩, .responded 2 (found "Up"), .clicked (some "up"),
        .clicked (some ""), .clicked (some "big"), .clicked (some "up")] s ∧
      (s.searchHistory.map Record.term).Perm ["up", "big", "up"] := by
  have hrun : system.Run [.handled 2, .handled 1, .handled 0, .responded 0 (found "Up"),
      .responded 1 ⟨none, none, true⟩, .responded 2 (found "Up"), .clicked (some "up"),
      .clicked (some ""), .clicked (some "big"), .clicked (some "up")] _ :=
    .step (.step (.step (.step (.step (.step (.step (.step (.step (.step (.start rfl) rfl) rfl) rfl)
      rfl) rfl) rfl) rfl) rfl) rfl) rfl
  exact ⟨_, hrun, (history_complete hrun).2.2 rfl rfl⟩

end PracticeSwift.MovieSearch.SearchScreen
