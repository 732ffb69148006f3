import FleetEnergy.Mobility.Statement
import FleetEnergy.Proofs.Decimal.Characters
import FleetEnergy.Proofs.Text.Blank
import FleetEnergy.Proofs.VehicleId

/-! The grammar of statements. Words are read if and only if they are a phrase of the grammar, and then as the statement
of that phrase. -/
namespace FleetEnergy
set_option autoImplicit false

namespace Statement

variable {w n : Word} {ws : List Word} {v : Float} {id : VehicleId} {order : Order} {s : Statement}

/-! ## The grammar -/

/-- A word that spells a finite number. -/
structure Numeral (w : Word) (v : Float) : Prop where
  reads : Decimal.readNumber w = .ok v
  finite : v.isFinite = true

/-- A word that spells the number of a node. -/
def NodeNumber (n : Word) (id : VehicleId) : Prop := Decimal.readWhole UInt32.size n = .ok id.node.toNat

def nodeWord (n : Word) : Word := "$node_(".toList ++ n ++ [')']

def axisWord : Axis → Word
  | .x => "X_".toList
  | .y => "Y_".toList
  | .z => "Z_".toList

/-- The words after the node. -/
inductive Orders : List Word → Order → Prop
  | set (axis : Axis) {w : Word} {v : Float} :
      Numeral w v → Orders ["set".toList, axisWord axis, w] (.set axis v)
  | setDestination {wx wy ws : Word} {x y speed : Float} :
      Numeral wx x → Numeral wy y → Numeral ws speed →
      Orders ["setdest".toList, wx, wy, ws] (.setDestination x y speed)

/-- The words of a statement: those of a command, alone or after `$ns_ at` and a time. -/
inductive Phrase : List Word → Statement → Prop
  | untimed {n : Word} {id : VehicleId} {ws : List Word} {order : Order} :
      NodeNumber n id → Orders ws order → Phrase (nodeWord n :: ws) ⟨none, id, order⟩
  | timed {t : Word} {time : Float} {n : Word} {id : VehicleId} {ws : List Word} {order : Order} :
      Numeral t time → NodeNumber n id → Orders ws order →
      Phrase ("$ns_".toList :: "at".toList :: t :: nodeWord n :: ws) ⟨some time, id, order⟩

/-! ## Reading words -/

theorem readNumber_eq_ok_iff : readNumber w = .ok v ↔ Numeral w v := by
  unfold readNumber
  constructor
  · intro h
    split at h
    · cases h
    · rename_i x hx
      split_ifs at h with hf
      cases h
      exact ⟨hx, hf⟩
  · rintro ⟨hv, hf⟩
    rw [hv]
    exact if_pos hf

theorem readCoordinate_eq_ok_iff : readCoordinate w = .ok v ↔ Numeral w v := by
  rw [← readNumber_eq_ok_iff, readCoordinate]
  cases readNumber w <;> simp [Except.mapError]

theorem axis?_eq_some_iff {axis : Axis} : axis? w = some axis ↔ w = axisWord axis := by
  constructor
  · intro h
    unfold axis? at h
    split at h <;> cases h <;> rfl
  · rintro rfl
    cases axis <;> rfl

theorem nodeText?_eq_some_iff : nodeText? w = some n ↔ w = nodeWord n := by
  constructor
  · intro h
    unfold nodeText? at h
    split at h
    · rename_i r
      split_ifs at h with hlast
      obtain ⟨front, rfl⟩ := List.getLast?_eq_some_iff.1 hlast
      rw [List.dropLast_concat] at h
      cases h
      rfl
    · cases h
  · rintro rfl
    change (if (n ++ [')']).getLast? = some ')' then some (n ++ [')']).dropLast else none) = some n
    rw [if_pos List.getLast?_concat, List.dropLast_concat]

theorem readId_eq_ok_iff (hn : ∀ c ∈ n, Text.isBlank c = false) : VehicleId.read n = .ok id ↔ NodeNumber n id := by
  rw [VehicleId.read_eq_ok_iff, Text.trim_solid hn, NodeNumber]

theorem readNode_eq_ok_iff (hw : ∀ c ∈ w, Text.isBlank c = false) :
    readNode w = .ok id ↔ ∃ n, w = nodeWord n ∧ NodeNumber n id := by
  unfold readNode
  cases hn : nodeText? w with
  | none =>
    refine ⟨nofun, ?_⟩
    rintro ⟨n, rfl, -⟩
    rw [nodeText?_eq_some_iff.2 rfl] at hn
    cases hn
  | some n =>
    obtain rfl := nodeText?_eq_some_iff.1 hn
    have hsolid : ∀ c ∈ n, Text.isBlank c = false := fun c hc =>
      hw c (List.mem_append_left _ (List.mem_append_right _ hc))
    have hid : VehicleId.read n = .ok id ↔ NodeNumber n id := readId_eq_ok_iff hsolid
    dsimp only
    constructor
    · intro h
      refine ⟨n, rfl, hid.1 ?_⟩
      cases hr : VehicleId.read n with
      | error e =>
        rw [hr] at h
        cases h
      | ok id' =>
        rw [hr] at h
        cases h
        rfl
    · rintro ⟨n', hword, hnumber⟩
      have htext := nodeText?_eq_some_iff.2 hword
      rw [hn] at htext
      cases htext
      rw [hid.2 hnumber]

/-- What is read in two steps is read if and only if both steps succeed. -/
theorem bind_eq_ok_iff {ε α β : Type} {x : Except ε α} {f : α → Except ε β} {b : β} :
    x >>= f = .ok b ↔ ∃ a, x = .ok a ∧ f a = .ok b := by
  cases x with
  | error e => exact ⟨nofun, fun ⟨_, h, _⟩ => nomatch h⟩
  | ok a => exact ⟨fun h => ⟨a, rfl, h⟩, fun ⟨_, rfl, h⟩ => h⟩

theorem readOrder_eq_ok_iff : readOrder ws = .ok order ↔ Orders ws order := by
  constructor
  · intro h
    unfold readOrder at h
    split at h
    · rename_i verb a b
      split_ifs at h with hverb
      subst hverb
      cases ha : axis? a with
      | none =>
        rw [ha] at h
        cases h
      | some axis =>
        rw [ha] at h
        obtain rfl := axis?_eq_some_iff.1 ha
        obtain ⟨value, hb, h⟩ := bind_eq_ok_iff.1 h
        cases h
        exact .set axis (readCoordinate_eq_ok_iff.1 hb)
    · rename_i verb a b c
      split_ifs at h with hverb
      subst hverb
      obtain ⟨x, ha, h⟩ := bind_eq_ok_iff.1 h
      obtain ⟨y, hb, h⟩ := bind_eq_ok_iff.1 h
      obtain ⟨speed, hc, h⟩ := bind_eq_ok_iff.1 h
      cases h
      exact .setDestination (readCoordinate_eq_ok_iff.1 ha) (readCoordinate_eq_ok_iff.1 hb)
        (readCoordinate_eq_ok_iff.1 hc)
    · cases h
  · rintro (⟨axis, hv⟩ | ⟨hx, hy, hspeed⟩)
    · unfold readOrder
      dsimp only
      rw [if_pos rfl, axis?_eq_some_iff.2 rfl, readCoordinate_eq_ok_iff.2 hv]
      rfl
    · unfold readOrder
      dsimp only
      rw [if_pos rfl, readCoordinate_eq_ok_iff.2 hx, readCoordinate_eq_ok_iff.2 hy, readCoordinate_eq_ok_iff.2 hspeed]
      rfl

/-! ## Reading a line of words -/

theorem readCommand_eq_ok_iff (hws : ∀ w ∈ ws, ∀ c ∈ w, Text.isBlank c = false) :
    readCommand ws = .ok (id, order) ↔ ∃ n r, ws = nodeWord n :: r ∧ NodeNumber n id ∧ Orders r order := by
  cases ws with
  | nil => exact ⟨nofun, nofun⟩
  | cons w r =>
    have hnode {id : VehicleId} : readNode w = .ok id ↔ ∃ n, w = nodeWord n ∧ NodeNumber n id :=
      readNode_eq_ok_iff (hws w List.mem_cons_self)
    constructor
    · intro h
      obtain ⟨id', hid, h⟩ := bind_eq_ok_iff.1 h
      obtain ⟨order', ho, h⟩ := bind_eq_ok_iff.1 h
      cases h
      obtain ⟨n, rfl, hn⟩ := hnode.1 hid
      exact ⟨n, r, rfl, hn, readOrder_eq_ok_iff.1 ho⟩
    · rintro ⟨n, r', heq, hn, ho⟩
      obtain ⟨rfl, rfl⟩ := List.cons.inj heq
      rw [readCommand, hnode.2 ⟨n, rfl, hn⟩, readOrder_eq_ok_iff.2 ho]
      rfl

theorem nodeWord_ne (n : Word) : nodeWord n ≠ "$ns_".toList := fun h => by
  have hthird : (nodeWord n)[2]? = some 'o' := rfl
  rw [h] at hthird
  exact absurd hthird (by decide)

theorem splitTime_eq_ok_iff {line : String} {time : Option Float} {rest : List Word} :
    splitTime line ws = .ok (time, rest) ↔
      (ws.head? ≠ some "$ns_".toList ∧ time = none ∧ rest = ws) ∨
      ∃ t x, ws = "$ns_".toList :: "at".toList :: t :: rest ∧ Numeral t x ∧ time = some x := by
  constructor
  · intro h
    unfold splitTime at h
    split at h
    · rename_i w r
      split_ifs at h with hns
      · split at h
        · rename_i a t rest'
          split_ifs at h with hat
          subst hns hat
          cases ht : readNumber t with
          | error e =>
            rw [ht] at h
            cases h
          | ok x =>
            rw [ht] at h
            cases h
            exact .inr ⟨t, x, rfl, readNumber_eq_ok_iff.1 ht, rfl⟩
        · cases h
      · cases h
        exact .inl ⟨fun hhead => hns (Option.some.inj hhead), rfl, rfl⟩
    · cases h
      exact .inl ⟨nofun, rfl, rfl⟩
  · rintro (⟨hhead, rfl, rfl⟩ | ⟨t, x, rfl, ht, rfl⟩)
    · cases rest with
      | nil => rfl
      | cons w r =>
        have hns : w ≠ "$ns_".toList := fun hw => hhead (congrArg some hw)
        unfold splitTime
        exact if_neg hns
    · rw [splitTime, if_pos rfl, if_pos rfl, readNumber_eq_ok_iff.2 ht]

/-- Words without blanks are read if and only if they are a phrase. -/
theorem ofWords_eq_ok_iff (line : String) (hws : ∀ w ∈ ws, ∀ c ∈ w, Text.isBlank c = false) :
    ofWords line ws = .ok s ↔ Phrase ws s := by
  unfold ofWords
  constructor
  · intro h
    cases hsplit : splitTime line ws with
    | error e =>
      rw [hsplit] at h
      cases h
    | ok split =>
      obtain ⟨time, rest⟩ := split
      rw [hsplit] at h
      dsimp only at h
      cases hcommand : readCommand rest with
      | error e =>
        rw [hcommand] at h
        cases h
      | ok command =>
        obtain ⟨id, order⟩ := command
        rw [hcommand] at h
        cases h
        obtain ⟨-, rfl, rfl⟩ | ⟨t, x, rfl, ht, rfl⟩ := splitTime_eq_ok_iff.1 hsplit
        · obtain ⟨n, r, rfl, hn, ho⟩ := (readCommand_eq_ok_iff hws).1 hcommand
          exact .untimed hn ho
        · obtain ⟨n, r, rfl, hn, ho⟩ := (readCommand_eq_ok_iff fun w hw => hws w (by simp [hw])).1 hcommand
          exact .timed ht hn ho
  · rintro (⟨hn, ho⟩ | ⟨ht, hn, ho⟩)
    · rename_i n id ws order
      have hhead : (nodeWord n :: ws).head? ≠ some "$ns_".toList := fun h => nodeWord_ne n (Option.some.inj h)
      rw [splitTime_eq_ok_iff.2 (.inl ⟨hhead, rfl, rfl⟩)]
      dsimp only
      rw [(readCommand_eq_ok_iff hws).2 ⟨_, _, rfl, hn, ho⟩]
    · rw [splitTime_eq_ok_iff.2 (.inr ⟨_, _, rfl, ht, rfl⟩)]
      dsimp only
      rw [(readCommand_eq_ok_iff fun w hw => hws w (by simp [hw])).2 ⟨_, _, rfl, hn, ho⟩]

end Statement

end FleetEnergy
