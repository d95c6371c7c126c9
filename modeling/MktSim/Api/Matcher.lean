import MktSim.Api.Sharding

set_option autoImplicit false

namespace MktSim

open Runs

abbrev Answer := Submission × Except ScriptError Reply

-- What the script matches, with no store: an order meets the other side's orders at rest whose scores are in its
-- range, by score and then by identifier, and takes from them what it can.
inductive Matches (lua : Lua) (earlier : List Answer) (table : Table) : Answer → Table → Prop where
  | of (order : Submission) (outcome : Except ScriptError Reply) (lots : List Lot) (next : Table)
      (own : order.accountId ≠ order.orderId) (fresh : ∀ answer ∈ earlier, ApartFrom answer.1 order)
      (queue : Queue table order.assetId order.book.opposite (reach order.book order.price) lots)
      (effect : Effect lua order table lots outcome next) : Matches lua earlier table (order, outcome) next

def MatcherRun (lua : Lua) : List Answer → Table → Prop := Trace emptyTable (Matches lua)

section Steps

variable {lua : Lua} {history : List Execution} {store : Store} {table : Table}

theorem fresh_answers {order : Submission} : FreshIn history order ↔
    order.accountId ≠ order.orderId ∧ ∀ answer ∈ history.map Execution.answer, ApartFrom answer.1 order := by
  simp [FreshIn, ApartFrom, Execution.answer]

theorem script_step_matches (rep : Represents store table) (sound : Sound history table) {execution : Execution} {after : Store}
    (step : ScriptStep lua history store execution after) :
    ∃ next, Matches lua (history.map Execution.answer) table execution.answer next ∧ Represents after next ∧
      Sound (history ++ [execution]) next := by
  obtain ⟨own, fresh⟩ := fresh_answers.mp step.1
  obtain ⟨lots, next, executed, rfl⟩ := step_executed rep sound step
  exact ⟨next, .of _ _ lots next own fresh executed.queue executed.effect, executed.after, execution_sound sound executed⟩

theorem matches_script_step (rep : Represents store table) (sound : Sound history table) {answer : Answer} {next : Table}
    (matched : Matches lua (history.map Execution.answer) table answer next) :
    ∃ execution after, ScriptStep lua history store execution after ∧ execution.answer = answer ∧ Represents after next ∧
      Sound (history ++ [execution]) next := by
  cases matched with
  | of order outcome lots next own fresh queue effect =>
      have step : ScriptStep lua history store (executionOf lua order store) (execute lua order store).2 :=
        ⟨fresh_answers.mpr ⟨own, fresh⟩, rfl, rfl⟩
      obtain ⟨met, made, executed, _⟩ := step_executed rep sound step
      obtain rfl := queue_unique queue executed.queue
      obtain ⟨rfl, agrees⟩ := effect_local effect executed.effect
      obtain rfl : next = made := funext fun orderId => agrees orderId rfl
      exact ⟨_, _, step, rfl, executed.after, execution_sound sound executed⟩

end Steps

/-- Run for run, the script on its store is the matcher on its table of orders at rest: they give the same answers, and
the store holds that table and nothing else. -/
theorem matcher_run_iff (lua : Lua) (answers : List Answer) (table : Table) :
    MatcherRun lua answers table ↔
      ∃ history store, Run lua history store ∧ history.map Execution.answer = answers ∧ Represents store table := by
  constructor
  · intro run
    have whole : ∃ history store, Run lua history store ∧ history.map Execution.answer = answers ∧ Represents store table ∧
        Sound history table := by
      refine trace_simulates (fun answers table history store => history.map Execution.answer = answers ∧
        Represents store table ∧ Sound history table) ?_ ?_ run
      · exact ⟨rfl, empty_represents, fun orderId resting found => by cases found⟩
      · rintro _ table answer next history store _ ⟨rfl, rep, sound⟩ matched
        obtain ⟨execution, after, step, answered, afterRep, afterSound⟩ := matches_script_step rep sound matched
        refine .inr ⟨execution, after, step, ?_, afterRep, afterSound⟩
        rw [List.map_append, ← answered]
        rfl
    obtain ⟨history, store, script, same, rep, _⟩ := whole
    exact ⟨history, store, script, same, rep⟩
  · intro script
    rcases script with ⟨history, store, script, rfl, rep⟩
    have whole : ∃ table, MatcherRun lua (history.map Execution.answer) table ∧ Represents store table ∧ Sound history table := by
      refine trace_invariant (fun history store => ∃ table, MatcherRun lua (history.map Execution.answer) table ∧
        Represents store table ∧ Sound history table) ?_ ?_ script
      · exact ⟨emptyTable, .start, empty_represents, fun orderId resting found => by cases found⟩
      · rintro history store execution after _ ⟨table, run, rep, sound⟩ step
        obtain ⟨next, matched, afterRep, afterSound⟩ := script_step_matches rep sound step
        refine ⟨next, ?_, afterRep, afterSound⟩
        rw [List.map_append]
        exact .next _ table _ next run matched
    obtain ⟨other, run, again, _⟩ := whole
    rwa [represents_injective rep again]

end MktSim
