import MktSim.Api.Deployment

set_option autoImplicit false

namespace MktSim

open Runs Sql

section Batch

variable {Row Key Form : Type} [DecidableEq Key] {schema : Schema Row Int32 Key} {row : Int32 → Form → Row}

def drawnRows (row : Int32 → Form → Row) : Nat → List Form → List Row
  | _, [] => []
  | assetId, form :: rest => row (.ofNat assetId) form :: drawnRows row (assetId + 1) rest

structure Fits (row : Int32 → Form → Row) (forms : List Form) (assetId : Nat) (table : Rows schema) : Prop where
  room : forms.length = 0 ∨ assetId + forms.length ≤ 2 ^ 31
  distinct : (table.rows.map schema.key ++ (drawnRows row assetId forms).map schema.key).Nodup

theorem insert_error {table : Rows schema} {item : Row} {violation : InsertError} (failed : table.insert item = .error violation) :
    violation = .uniqueViolation ∧
      (schema.id item ∈ table.rows.map schema.id ∨ schema.key item ∈ table.rows.map schema.key) := by
  rw [Rows.insert] at failed
  split at failed
  · cases failed
  · rename_i taken
    refine ⟨(Except.error.inj failed).symm, ?_⟩
    by_contra free
    exact taken (not_or.mp free)

omit [DecidableEq Key] in
theorem drawn_ids (own : ∀ id form, schema.id (row id form) = id) {forms : List Form} {assetId : Nat}
    (room : assetId + forms.length ≤ 2 ^ 31) {item : Row} (member : item ∈ drawnRows row assetId forms) :
    (assetId : Int) ≤ (schema.id item).toInt ∧ (schema.id item).toInt < assetId + forms.length := by
  induction forms generalizing assetId with
  | nil => cases member
  | cons form rest ih =>
      rw [List.length_cons] at room
      cases List.mem_cons.mp member with
      | inl first =>
          rw [first, own, Int32.toInt_ofNat_of_lt (by omega), List.length_cons]
          omega
      | inr later =>
          have within := ih (by omega) later
          rw [List.length_cons]
          omega

variable (own : ∀ id form, schema.id (row id form) = id)

include own

omit [DecidableEq Key] in
theorem fits_ids {forms : List Form} {assetId : Nat} {table : Rows schema} (fits : Fits row forms assetId table) {item : Row}
    (member : item ∈ drawnRows row assetId forms) :
    (assetId : Int) ≤ (schema.id item).toInt ∧ (schema.id item).toInt < (assetId + forms.length : Nat) := by
  cases fits.room with
  | inl none_ =>
      rw [List.eq_nil_of_length_eq_zero none_] at member
      cases member
  | inr room => exact_mod_cast drawn_ids own room member

omit [DecidableEq Key] in
theorem drawn_unused {assetId : Nat} {table : Rows schema} (form : Form) (room : assetId < 2 ^ 31)
    (below : ∀ held ∈ table.rows, (schema.id held).toInt < assetId) :
    schema.id (row (.ofNat assetId) form) ∉ table.rows.map schema.id := by
  intro taken
  obtain ⟨held, member, same⟩ := List.mem_map.mp taken
  have less := below held member
  rw [same, own, Int32.toInt_ofNat_of_lt room] at less
  exact Int.lt_irrefl _ less

theorem inserted_below {assetId : Nat} {table next : Rows schema} {form : Form} (room : assetId < 2 ^ 31)
    (inserted : table.insert (row (.ofNat assetId) form) = .ok next)
    (below : ∀ held ∈ table.rows, (schema.id held).toInt < assetId) :
    ∀ held ∈ next.rows, (schema.id held).toInt < (assetId + 1 : Nat) := by
  intro held member
  cases (mem_insert inserted held).mp member with
  | inl old => exact (below held old).trans (by omega)
  | inr new =>
      rw [new, own, Int32.toInt_ofNat_of_lt room]
      omega

omit own in
theorem fits_cons {assetId : Nat} {table next : Rows schema} {form : Form} {rest : List Form} (room : assetId < 2 ^ 31)
    (inserted : table.insert (row (.ofNat assetId) form) = .ok next) :
    Fits row (form :: rest) assetId table ↔ Fits row rest (assetId + 1) next := by
  have rows := insert_rows inserted
  constructor
  · intro fits
    rcases fits with ⟨enough, distinct⟩
    refine ⟨?_, ?_⟩
    · rw [List.length_cons] at enough
      omega
    · rw [rows]
      simpa [drawnRows] using distinct
  · intro fits
    rcases fits with ⟨enough, distinct⟩
    refine ⟨?_, ?_⟩
    · rw [List.length_cons]
      omega
    · rw [rows] at distinct
      simpa [drawnRows] using distinct

-- A statement makes all its rows or none: it fails on the first one that has no identifier or a key that is taken.
theorem insert_each_spec {forms : List Form} {assetId : Nat} {table : Rows schema}
    (below : ∀ held ∈ table.rows, (schema.id held).toInt < assetId) :
    (Fits row forms assetId table ∧ ∃ after, insertEach row forms assetId table =
        (.ok (drawnRows row assetId forms, after), assetId + forms.length) ∧
          after.rows = table.rows ++ drawnRows row assetId forms) ∨
      (¬ Fits row forms assetId table ∧ ∃ violation next, insertEach row forms assetId table = (.error violation, next) ∧
        violation ≠ .foreignKeyViolation ∧ (assetId + forms.length ≤ 2 ^ 31 → violation = .uniqueViolation)) := by
  induction forms generalizing assetId table with
  | nil =>
      refine .inl ⟨⟨.inl rfl, ?_⟩, table, rfl, (List.append_nil _).symm⟩
      rw [drawnRows, List.map_nil, List.append_nil]
      exact table.keys
  | cons form rest ih =>
      rw [insertEach]
      by_cases room : assetId < 2 ^ 31
      · have drawn : assetIdInteger assetId = some (.ofNat assetId) := if_pos room
        have unused := drawn_unused own form room below
        rw [drawn]
        simp only
        cases inserted : table.insert (row (.ofNat assetId) form) with
        | error violation =>
            obtain ⟨rfl, taken⟩ := insert_error inserted
            refine .inr ⟨fun fits => ?_, _, _, rfl, InsertError.noConfusion, fun _ => rfl⟩
            have apart := (List.nodup_append.mp fits.distinct).2.2
            exact apart _ (taken.resolve_left unused) _ (List.mem_cons_self ..) rfl
        | ok next =>
            have rows := insert_rows inserted
            have nextBelow := inserted_below own room inserted below
            have fits : Fits row (form :: rest) assetId table ↔ Fits row rest (assetId + 1) next := fits_cons room inserted
            rw [fits]
            simp only
            cases ih nextBelow with
            | inl done =>
                obtain ⟨may, after, each, afterRows⟩ := done
                refine .inl ⟨may, after, ?_, ?_⟩
                · rw [each, List.length_cons]
                  simp only [drawnRows, Nat.add_assoc, Nat.add_comm 1]
                · rw [afterRows, rows, List.append_assoc]
                  rfl
            | inr failed =>
                obtain ⟨cannot, violation, last, each, other, unique⟩ := failed
                refine .inr ⟨cannot, violation, last, ?_, other, fun enough => unique ?_⟩
                · rw [each]
                · rw [List.length_cons] at enough
                  omega
      · have drawn : assetIdInteger assetId = none := if_neg room
        rw [drawn]
        refine .inr ⟨fun fits => ?_, _, _, rfl, InsertError.noConfusion, fun enough => ?_⟩
        · have enough := fits.room
          rw [List.length_cons] at enough
          omega
        · rw [List.length_cons] at enough
          omega

theorem insert_rows_spec (refers : Row → Bool) {forms : List Form} {assetId : Nat} {table : Rows schema}
    (below : ∀ held ∈ table.rows, (schema.id held).toInt < assetId) :
    (Fits row forms assetId table ∧ (∀ item ∈ drawnRows row assetId forms, refers item = true) ∧
        ∃ after, insertRows row refers forms assetId table =
          (.ok (drawnRows row assetId forms, after), assetId + forms.length) ∧
            after.rows = table.rows ++ drawnRows row assetId forms) ∨
      (Fits row forms assetId table ∧ (¬ ∀ item ∈ drawnRows row assetId forms, refers item = true) ∧
        ∃ next, insertRows row refers forms assetId table = (.error .foreignKeyViolation, next)) ∨
      (¬ Fits row forms assetId table ∧ ∃ violation next, insertRows row refers forms assetId table = (.error violation, next) ∧
        violation ≠ .foreignKeyViolation ∧ (assetId + forms.length ≤ 2 ^ 31 → violation = .uniqueViolation)) := by
  rw [insertRows]
  cases insert_each_spec own below with
  | inl done =>
      obtain ⟨fits, after, each, rows⟩ := done
      rw [each]
      simp only
      by_cases all : ∀ item ∈ drawnRows row assetId forms, refers item = true
      · rw [if_pos (List.all_eq_true.mpr all)]
        exact .inl ⟨fits, all, after, rfl, rows⟩
      · rw [if_neg fun every => all (List.all_eq_true.mp every)]
        exact .inr (.inl ⟨fits, all, _, rfl⟩)
  | inr failed =>
      obtain ⟨cannot, violation, next, each, rest⟩ := failed
      rw [each]
      exact .inr (.inr ⟨cannot, violation, next, rfl, rest⟩)

end Batch

structure Catalogue (assets : Assets) : Prop where
  well : WellListed assets
  below : ∀ assetId, assets.Lists assetId → assetId.toInt < assets.assetId
  apart : ∀ row ∈ assets.equity.rows, ∀ option ∈ assets.option.rows, row.id ≠ option.id

theorem start_catalogue : Catalogue .start where
  well := start_well_listed
  below assetId listed := by
    obtain ⟨row, member, _⟩ | ⟨row, member, _⟩ := listed <;> cases member
  apart row member := by cases member

def Extends (before after : Assets) : Prop :=
  before.equity.rows <+: after.equity.rows ∧ before.option.rows <+: after.option.rows

theorem extends_refl (assets : Assets) : Extends assets assets := ⟨List.prefix_rfl, List.prefix_rfl⟩

theorem extends_trans {first second third : Assets} (earlier : Extends first second) (later : Extends second third) :
    Extends first third := ⟨earlier.1.trans later.1, earlier.2.trans later.2⟩

structure BatchAnswered {Row : Type} (call : Call) (room fits refers : Prop) (made : List Row) (before after : List Row)
    (answer : Except Status (List Row)) : Prop where
  sent : ∀ reply, answer = .ok reply ↔ call = .answered ∧ fits ∧ refers ∧ reply = made
  stored : call ≠ .lost ∧ fits ∧ refers ∧ after = before ++ made ∨ ¬ (call ≠ .lost ∧ fits ∧ refers) ∧ after = before
  unprocessable : answer = .error .unprocessableEntity ↔ call = .answered ∧ fits ∧ ¬ refers
  conflict : room → (answer = .error .conflict ↔ call = .answered ∧ ¬ fits)

section Answer

variable {Row : Type} {call : Call} {room fits refers : Prop} {made before after : List Row} {answer : Except Status (List Row)}

theorem batch_lost (failed : answer = .error .internalServerError) (kept : after = before) :
    BatchAnswered .lost room fits refers made before after answer := by
  subst failed kept
  exact ⟨by simp, .inr ⟨fun both => both.1 rfl, rfl⟩, by simp, by simp⟩

theorem batch_stored {statusOf : InsertError → Status} (asked : call ≠ .lost) (may : fits) (known : refers)
    (same : answer = answerOf call statusOf (.ok made)) (rows : after = before ++ made) :
    BatchAnswered call room fits refers made before after answer := by
  subst same rows
  cases call with
  | lost => exact absurd rfl asked
  | answered => exact ⟨by simp [answerOf, may, known, eq_comm], .inl ⟨asked, may, known, rfl⟩, by simp [answerOf, known], by simp [answerOf, may]⟩
  | unanswered => exact ⟨by simp [answerOf], .inl ⟨asked, may, known, rfl⟩, by simp [answerOf], by simp [answerOf]⟩

theorem batch_failed {statusOf : InsertError → Status} {violation : InsertError} (asked : call ≠ .lost) (not_ : ¬ (fits ∧ refers))
    (same : answer = answerOf call statusOf (.error violation)) (kept : after = before)
    (foreign : statusOf violation = .unprocessableEntity ↔ fits ∧ ¬ refers)
    (conflict : room → (statusOf violation = .conflict ↔ ¬ fits)) :
    BatchAnswered call room fits refers made before after answer := by
  subst same kept
  refine ⟨fun reply => ?_, .inr ⟨fun all => not_ all.2, rfl⟩, ?_, fun enough => ?_⟩
  · constructor
    · intro done
      cases call <;> cases done
    · exact fun all => absurd ⟨all.2.1, all.2.2.1⟩ not_
  · cases call with
    | lost => exact absurd rfl asked
    | answered => simpa [answerOf] using foreign
    | unanswered => simp [answerOf]
  · cases call with
    | lost => exact absurd rfl asked
    | answered => simpa [answerOf] using conflict enough
    | unanswered => simp [answerOf]

end Answer

section Create

variable {assets : Assets} (catalogue : Catalogue assets) (call : Call)

include catalogue

theorem equities_below : ∀ held ∈ assets.equity.rows, (equities.id held).toInt < assets.assetId :=
  fun held member => catalogue.below held.id (.inl ⟨held, member, rfl⟩)

theorem options_below : ∀ held ∈ assets.option.rows, (equityOptions.id held).toInt < assets.assetId :=
  fun held member => catalogue.below held.id (.inr ⟨held, member, rfl⟩)

theorem create_equities_answered (items : List CreateEquityForm) :
    BatchAnswered call (assets.assetId + items.length ≤ 2 ^ 31)
      (Fits CreateEquityForm.row items assets.assetId assets.equity) True
      (drawnRows CreateEquityForm.row assets.assetId items) assets.equity.rows (createEquities call items assets).2.equity.rows
      (createEquities call items assets).1 := by
  by_cases asked : call = .lost
  · subst asked
    exact batch_lost rfl rfl
  rw [createEquities, if_neg asked]
  obtain ⟨may, _, after, each, rows⟩ | ⟨_, apart, _⟩ | ⟨cannot, violation, next, each, other, unique⟩ :=
    @insert_rows_spec _ _ _ _ equities CreateEquityForm.row (fun _ _ => rfl) (fun _ => true) items _ _ (equities_below catalogue)
  · rw [each]
    exact batch_stored asked may trivial rfl rows
  · exact absurd (fun _ _ => rfl) apart
  · rw [each]
    refine batch_failed asked (fun both => cannot both.1) rfl rfl ?_ fun enough => ?_
    · cases violation <;> simp [equityStatus]
    · rw [unique enough]
      simpa [equityStatus] using cannot

theorem create_equity_options_answered (items : List CreateEquityOptionItem) :
    BatchAnswered call (assets.assetId + items.length ≤ 2 ^ 31)
      (Fits CreateEquityOptionItem.row items assets.assetId assets.option)
      (∀ option ∈ drawnRows CreateEquityOptionItem.row assets.assetId items, assets.refers option = true)
      (drawnRows CreateEquityOptionItem.row assets.assetId items) assets.option.rows
      (createEquityOptions call items assets).2.option.rows (createEquityOptions call items assets).1 := by
  by_cases asked : call = .lost
  · subst asked
    exact batch_lost rfl rfl
  rw [createEquityOptions, if_neg asked]
  obtain ⟨may, known, after, each, rows⟩ | ⟨may, unknown, next, each⟩ | ⟨cannot, violation, next, each, other, unique⟩ :=
    @insert_rows_spec _ _ _ _ equityOptions CreateEquityOptionItem.row (fun _ _ => rfl) assets.refers items _ _
      (options_below catalogue)
  · rw [each]
    exact batch_stored asked may known rfl rows
  · rw [each]
    refine batch_failed asked (fun both => unknown both.2) rfl rfl ?_ fun _ => ?_
    · simpa [equityOptionStatus, may] using unknown
    · simp [equityOptionStatus, may]
  · rw [each]
    refine batch_failed asked (fun both => cannot both.1) rfl rfl ?_ fun enough => ?_
    · cases violation <;> simp [equityOptionStatus, cannot] at other ⊢
    · rw [unique enough]
      simpa [equityOptionStatus] using cannot

theorem drawn_catalogue {next : Nat} (later : assets.assetId ≤ next) : Catalogue { assets with assetId := next } :=
  ⟨drawn_well_listed catalogue.well later, fun assetId listed => (catalogue.below assetId listed).trans_le (by exact_mod_cast later),
    catalogue.apart⟩

theorem create_equities_catalogue (items : List CreateEquityForm) :
    Catalogue (createEquities call items assets).2 ∧ Extends assets (createEquities call items assets).2 := by
  have well := (create_equities_kept catalogue.well call items).1
  have later := @insert_rows_next _ _ _ _ equities CreateEquityForm.row (fun _ => true) items assets.assetId assets.equity
  rw [createEquities] at well ⊢
  split
  · exact ⟨catalogue, extends_refl assets⟩
  · rename_i asked
    rw [if_neg asked] at well
    obtain ⟨may, _, after, each, rows⟩ | ⟨_, apart, _⟩ | ⟨_, violation, next, each, _⟩ :=
      @insert_rows_spec _ _ _ _ equities CreateEquityForm.row (fun _ _ => rfl) (fun _ => true) items _ _ (equities_below catalogue)
    · rw [each] at well ⊢
      refine ⟨⟨well, fun assetId listed => ?_, fun row member option old => ?_⟩, ⟨_, rows.symm⟩, List.prefix_rfl⟩
      · obtain ⟨row, member, rfl⟩ | derived := listed
        · rw [rows] at member
          cases List.mem_append.mp member with
          | inl old => exact (equities_below catalogue row old).trans_le (by simp)
          | inr new => exact (fits_ids (fun _ _ => rfl) may new).2
        · exact (catalogue.below assetId (.inr derived)).trans_le (by simp)
      · simp only at member
        rw [rows] at member
        cases List.mem_append.mp member with
        | inl held => exact catalogue.apart row held option old
        | inr new =>
            intro same
            have above := (fits_ids (fun _ _ => rfl) may new).1
            have under := options_below catalogue option old
            change _ ≤ row.id.toInt at above
            rw [same] at above
            exact absurd under (Int.not_lt.mpr above)
    · exact absurd (fun _ _ => rfl) apart
    · rw [each] at later ⊢
      exact ⟨drawn_catalogue catalogue later, extends_refl assets⟩

theorem create_equity_options_catalogue (items : List CreateEquityOptionItem) :
    Catalogue (createEquityOptions call items assets).2 ∧ Extends assets (createEquityOptions call items assets).2 := by
  have well := (create_equity_options_kept catalogue.well call items).1
  have later := @insert_rows_next _ _ _ _ equityOptions CreateEquityOptionItem.row assets.refers items assets.assetId assets.option
  rw [createEquityOptions] at well ⊢
  split
  · exact ⟨catalogue, extends_refl assets⟩
  · rename_i asked
    rw [if_neg asked] at well
    obtain ⟨may, _, after, each, rows⟩ | ⟨_, _, next, each⟩ | ⟨_, violation, next, each, _⟩ :=
      @insert_rows_spec _ _ _ _ equityOptions CreateEquityOptionItem.row (fun _ _ => rfl) assets.refers items _ _
        (options_below catalogue)
    · rw [each] at well ⊢
      refine ⟨⟨well, fun assetId listed => ?_, fun row old option member => ?_⟩, List.prefix_rfl, ⟨_, rows.symm⟩⟩
      · obtain equity | ⟨option, member, rfl⟩ := listed
        · exact (catalogue.below assetId (.inl equity)).trans_le (by simp)
        · rw [rows] at member
          cases List.mem_append.mp member with
          | inl old => exact (options_below catalogue option old).trans_le (by simp)
          | inr new => exact (fits_ids (fun _ _ => rfl) may new).2
      · simp only at member
        rw [rows] at member
        cases List.mem_append.mp member with
        | inl held => exact catalogue.apart row old option held
        | inr new =>
            intro same
            have above := (fits_ids (fun _ _ => rfl) may new).1
            have under := equities_below catalogue row old
            change _ ≤ option.id.toInt at above
            rw [← same] at above
            exact absurd under (Int.not_lt.mpr above)
    · rw [each] at later ⊢
      exact ⟨drawn_catalogue catalogue later, extends_refl assets⟩
    · rw [each] at later ⊢
      exact ⟨drawn_catalogue catalogue later, extends_refl assets⟩

end Create

section Deployed

variable {server : Server} {before after : Deployment} {event : DeploymentEvent}

theorem deployed_catalogue (catalogue : Catalogue before.assets) (deployed : Deployed server before event after) :
    Catalogue after.assets ∧ Extends before.assets after.assets := by
  cases deployed with
  | createEquities authorization call items claim admitted => exact create_equities_catalogue catalogue call items
  | createEquityOptions authorization call items claim admitted => exact create_equity_options_catalogue catalogue call items
  | _ => exact ⟨catalogue, extends_refl before.assets⟩

end Deployed

theorem deployment_catalogue {server : Server} {clock : Nat} {history : List DeploymentEvent} {deployment : Deployment}
    (run : DeploymentRun server clock history deployment) : Catalogue deployment.assets :=
  trace_invariant (fun _ deployment => Catalogue deployment.assets) start_catalogue
    (fun _ _ _ _ _ catalogue fired => (deployed_catalogue catalogue (deployment_step_cases fired)).1) run

section Served

variable {assets : Assets} {row : Equity}

theorem join_once (member : row ∈ assets.equity.rows) (option : EquityOption) :
    (assets.equity.rows.filter fun other => other.id = option.underlying ∧ other.ticker = row.ticker).map (fun _ => option) =
      if option.underlying = row.id then [option] else [] := by
  have own : ∀ other ∈ assets.equity.rows, other.ticker = row.ticker → other = row :=
    fun other held same => row_of_key held member same
  split
  · rename_i derived
    have only : assets.equity.rows.filter (fun other => other.id = option.underlying ∧ other.ticker = row.ticker) =
        assets.equity.rows.filter (· = row) := by
      refine List.filter_congr fun other held => decide_eq_decide.mpr ⟨fun both => own other held both.2, ?_⟩
      rintro rfl
      exact ⟨derived.symm, rfl⟩
    rw [only, List.filter_eq, List.count_eq_one_of_mem (List.Nodup.of_map _ assets.equity.ids) member]
    rfl
  · rename_i apart
    rw [List.filter_eq_nil_iff.mpr]
    · rfl
    · intro other held both
      obtain ⟨id, ticker⟩ := of_decide_eq_true both
      rw [own other held ticker] at id
      exact apart id.symm

theorem options_agree (member : row ∈ assets.equity.rows) (call : Call) :
    listEquityOptionsByUnderlyingTicker call row.ticker assets = listEquityOptionsByUnderlyingId call row.id assets := by
  rw [listEquityOptionsByUnderlyingTicker, listEquityOptionsByUnderlyingId, funext (join_once member)]
  congr 1
  induction assets.option.rows with
  | nil => rfl
  | cons option rest ih => by_cases derived : option.underlying = row.id <;> simp [derived, ih]

-- A listed equity as the lookups see it. Its ticker is no path to it where it reads as another number.
structure EquityServed (assets : Assets) (row : Equity) : Prop where
  byId : getEquityById .answered row.id assets = .ok row
  byTicker : getEquityByTicker .answered row.ticker assets = .ok row
  options : listEquityOptionsByUnderlyingTicker .answered row.ticker assets =
    listEquityOptionsByUnderlyingId .answered row.id assets
  number : ∀ segment, parseI32 segment = some row.id → getEquity .answered segment assets = .ok row ∧
    listEquityOptions .answered segment assets = listEquityOptionsByUnderlyingId .answered row.id assets
  path : getEquity .answered row.ticker assets = .ok row ↔ ∀ assetId, parseI32 row.ticker = some assetId → assetId = row.id

theorem equity_served (member : row ∈ assets.equity.rows) : EquityServed assets row := by
  have byId := get_equity_iff.mpr ⟨rfl, member, rfl⟩
  have byTicker := get_ticker_iff.mpr ⟨rfl, member, rfl⟩
  refine ⟨byId, byTicker, options_agree member .answered, fun segment parsed => ?_, ?_⟩
  · rw [getEquity, listEquityOptions, parsed]
    exact ⟨byId, rfl⟩
  · rw [getEquity]
    cases parsed : parseI32 row.ticker with
    | none =>
        exact ⟨fun _ assetId some_ => absurd some_ (Option.some_ne_none assetId).symm, fun _ => byTicker⟩
    | some assetId =>
        constructor
        · intro found other same
          obtain rfl := Option.some.inj same
          exact (get_equity_iff.mp found).2.2.symm
        · intro own
          rw [own assetId rfl]
          exact byId

end Served

def listing : DeploymentEvent :=
  .createEquities (some (bearer ++ adminToken)) .answered [⟨"ACME", none⟩, ⟨"12", some "Twelve"⟩]

def optionListing : DeploymentEvent := .createEquityOptions (some (bearer ++ adminToken)) .answered [⟨1, 20000, .call, 5000⟩]

def listed : Deployment :=
  { booted with assets := (createEquities .answered [⟨"ACME", none⟩, ⟨"12", some "Twelve"⟩] booted.assets).2 }

def optionsListed : Deployment :=
  { listed with assets := (createEquityOptions .answered [⟨1, 20000, .call, 5000⟩] listed.assets).2 }

theorem local_admin {deployment : Deployment} (second : deployment.second = 1717200000) (segment : String) :
    localServer.adminCheck deployment (some (bearer ++ adminToken)) segment = .success adminClaim := by
  have presents : (localAuthn.parsers deployment.second).Presents (localAuthn.request (some (bearer ++ adminToken)) segment)
      adminClaim := local_presents local_tokens.1 (by rw [second]; decide)
  exact (admin_check_presents presents).trans (if_pos contains_admin)

theorem listed_fires : booted.step localServer listing = some listed := by
  have second : booted.second = 1717200000 := by decide +kernel
  rw [listing, Deployment.step, local_admin second]
  rfl

theorem options_listed_fires : listed.step localServer optionListing = some optionsListed := by
  have second : listed.second = 1717200000 := by decide +kernel
  rw [optionListing, Deployment.step, local_admin second]
  rfl

theorem listed_run : DeploymentRun localServer 1717200000000 (boot ++ [listing]) listed :=
  .next boot booted listing listed (deployment_run_after _) listed_fires

/-- Batches are whole: whatever happened before, the rows of a batch are stored and sent all together, under the next
identifiers, or none is, for the reason the status gives. -/
theorem batches_whole (server : Server) (clock : Nat) (history : List DeploymentEvent) (deployment : Deployment)
    (run : DeploymentRun server clock history deployment) (call : Call) (equityItems : List CreateEquityForm)
    (optionItems : List CreateEquityOptionItem) :
    BatchAnswered call (deployment.assets.assetId + equityItems.length ≤ 2 ^ 31)
      (Fits CreateEquityForm.row equityItems deployment.assets.assetId deployment.assets.equity) True
      (drawnRows CreateEquityForm.row deployment.assets.assetId equityItems) deployment.assets.equity.rows
      (createEquities call equityItems deployment.assets).2.equity.rows (createEquities call equityItems deployment.assets).1 ∧
    BatchAnswered call (deployment.assets.assetId + optionItems.length ≤ 2 ^ 31)
      (Fits CreateEquityOptionItem.row optionItems deployment.assets.assetId deployment.assets.option)
      (∀ option ∈ drawnRows CreateEquityOptionItem.row deployment.assets.assetId optionItems,
        deployment.assets.refers option = true)
      (drawnRows CreateEquityOptionItem.row deployment.assets.assetId optionItems) deployment.assets.option.rows
      (createEquityOptions call optionItems deployment.assets).2.option.rows
      (createEquityOptions call optionItems deployment.assets).1 :=
  ⟨create_equities_answered (deployment_catalogue run) call equityItems,
    create_equity_options_answered (deployment_catalogue run) call optionItems⟩

theorem batches_whole_listed :
    BatchAnswered .answered (listed.assets.assetId + [(⟨"ACME", none⟩ : CreateEquityForm)].length ≤ 2 ^ 31)
      (Fits CreateEquityForm.row [⟨"ACME", none⟩] listed.assets.assetId listed.assets.equity) True
      (drawnRows CreateEquityForm.row listed.assets.assetId [⟨"ACME", none⟩]) listed.assets.equity.rows
      (createEquities .answered [⟨"ACME", none⟩] listed.assets).2.equity.rows
      (createEquities .answered [⟨"ACME", none⟩] listed.assets).1 ∧
    BatchAnswered .answered (listed.assets.assetId + [(⟨1, 20000, .call, 5000⟩ : CreateEquityOptionItem)].length ≤ 2 ^ 31)
      (Fits CreateEquityOptionItem.row [⟨1, 20000, .call, 5000⟩] listed.assets.assetId listed.assets.option)
      (∀ option ∈ drawnRows CreateEquityOptionItem.row listed.assets.assetId [⟨1, 20000, .call, 5000⟩],
        listed.assets.refers option = true)
      (drawnRows CreateEquityOptionItem.row listed.assets.assetId [⟨1, 20000, .call, 5000⟩]) listed.assets.option.rows
      (createEquityOptions .answered [⟨1, 20000, .call, 5000⟩] listed.assets).2.option.rows
      (createEquityOptions .answered [⟨1, 20000, .call, 5000⟩] listed.assets).1 :=
  batches_whole localServer 1717200000000 (boot ++ [listing]) listed listed_run .answered [⟨"ACME", none⟩]
    [⟨1, 20000, .call, 5000⟩]

/-- What was listed once is served ever after, under the same identifiers and tickers. -/
theorem catalogue_lasts (server : Server) (clock : Nat) (history : List DeploymentEvent) (deployment : Deployment)
    (run : DeploymentRun server clock history deployment) (more : List DeploymentEvent) (later : Deployment)
    (goesOn : more.foldlM (Deployment.step server) deployment = some later) :
    Catalogue later.assets ∧ Extends deployment.assets later.assets ∧
      (∃ equities, listEquities .answered later.assets = .ok equities ∧ deployment.assets.equity.rows <+: equities.items) ∧
      (∀ row ∈ deployment.assets.equity.rows, EquityServed later.assets row) ∧
      ∀ option ∈ deployment.assets.option.rows, ∃ row ∈ deployment.assets.equity.rows, row.id = option.underlying ∧
        ∃ options, listEquityOptionsByUnderlyingId .answered row.id later.assets = .ok options ∧ option ∈ options.items := by
  have catalogue := deployment_catalogue run
  have longer : Extends deployment.assets later.assets :=
    @run_relates _ _ (Deployment.installed clock) (Deployment.step server)
      (fun before after => Extends before.assets after.assets) (fun state => extends_refl state.assets)
      (fun earlier later => extends_trans earlier later)
      (fun _ _ _ _ earlier fired => (deployed_catalogue (deployment_catalogue earlier) (deployment_step_cases fired)).2)
      history deployment later run more goesOn
  refine ⟨deployment_catalogue (run_steps run more goesOn), longer, ⟨_, rfl, longer.1⟩, fun row member => ?_,
    fun option member => ?_⟩
  · exact equity_served (longer.1.subset member)
  · obtain ⟨row, known, same⟩ := catalogue.well.underlying option member
    refine ⟨row, known, same, _, rfl, List.mem_filter.mpr ⟨longer.2.subset member, decide_eq_true same.symm⟩⟩

theorem catalogue_lasts_listed :
    Catalogue optionsListed.assets ∧ Extends listed.assets optionsListed.assets ∧
      (∃ equities, listEquities .answered optionsListed.assets = .ok equities ∧ listed.assets.equity.rows <+: equities.items) ∧
      (∀ row ∈ listed.assets.equity.rows, EquityServed optionsListed.assets row) ∧
      ∀ option ∈ listed.assets.option.rows, ∃ row ∈ listed.assets.equity.rows, row.id = option.underlying ∧
        ∃ options, listEquityOptionsByUnderlyingId .answered row.id optionsListed.assets = .ok options ∧ option ∈ options.items :=
  catalogue_lasts localServer 1717200000000 (boot ++ [listing]) listed listed_run [optionListing] optionsListed
    (by rw [List.foldlM_cons, options_listed_fires]; rfl)

end MktSim
