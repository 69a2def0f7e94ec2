import ListingEditor.Double.Render
import ListingEditor.Text.Digit
import ListingEditor.Text.Quoted

/-!
Values of preferences. A preference declares the kind of value it wants, but a host may assign any value, so
the kinds are told apart only where a value is used.
-/

namespace ListingEditor

/-- A value that a preference can have. -/
inductive Value where
  | absent
  | flag (b : Bool)
  | number (n : Int)
  | double (x : Double)
  | text (s : String)
  | list (items : List Value)
  | record (fields : List (String × Value))
  deriving Repr, Inhabited

/-- Why a value cannot be shown: it holds a number with too many digits. -/
inductive ShowError where
  | longNumber
  deriving DecidableEq, Repr

instance : Subsingleton ShowError := ⟨fun .longNumber .longNumber => rfl⟩

/-- The message about a value that cannot be shown. -/
def ShowError.message : ShowError → String
  | .longNumber => "Exceeds the limit (" ++ toString Text.digitLimit ++
      " digits) for integer string conversion; use sys.set_int_max_str_digits() to increase the limit"

namespace Value

mutual

/-- Decides whether two values are the same in every part. -/
def decEq : (v w : Value) → Decidable (v = w)
  | .absent, w => match w with
    | .absent => isTrue rfl
    | .flag _ | .number _ | .double _ | .text _ | .list _ | .record _ => isFalse nofun
  | .flag a, w => match w with
    | .flag b => decidable_of_iff (a = b) (by simp)
    | .absent | .number _ | .double _ | .text _ | .list _ | .record _ => isFalse nofun
  | .number a, w => match w with
    | .number b => decidable_of_iff (a = b) (by simp)
    | .absent | .flag _ | .double _ | .text _ | .list _ | .record _ => isFalse nofun
  | .double a, w => match w with
    | .double b => decidable_of_iff (a = b) (by simp)
    | .absent | .flag _ | .number _ | .text _ | .list _ | .record _ => isFalse nofun
  | .text a, w => match w with
    | .text b => decidable_of_iff (a = b) (by simp)
    | .absent | .flag _ | .number _ | .double _ | .list _ | .record _ => isFalse nofun
  | .list a, w => match w with
    | .list b => @decidable_of_iff _ (a = b) (by simp) (decEqItems a b)
    | .absent | .flag _ | .number _ | .double _ | .text _ | .record _ => isFalse nofun
  | .record a, w => match w with
    | .record b => @decidable_of_iff _ (a = b) (by simp) (decEqFields a b)
    | .absent | .flag _ | .number _ | .double _ | .text _ | .list _ => isFalse nofun

/-- Decides whether two lists of values are the same. -/
def decEqItems : (vs ws : List Value) → Decidable (vs = ws)
  | [], [] => isTrue rfl
  | [], _ :: _ | _ :: _, [] => isFalse nofun
  | v :: vs, w :: ws =>
    match decEq v w, decEqItems vs ws with
    | isTrue hv, isTrue hvs => isTrue (by rw [hv, hvs])
    | isFalse hv, _ => isFalse fun h => hv (List.cons.inj h).1
    | _, isFalse hvs => isFalse fun h => hvs (List.cons.inj h).2

/-- Decides whether two lists of named values are the same. -/
def decEqFields : (vs ws : List (String × Value)) → Decidable (vs = ws)
  | [], [] => isTrue rfl
  | [], _ :: _ | _ :: _, [] => isFalse nofun
  | (k, v) :: vs, (l, w) :: ws =>
    match decEq v w, decEqFields vs ws with
    | isTrue hv, isTrue hvs =>
      if hk : k = l then isTrue (by rw [hk, hv, hvs])
      else isFalse fun h => hk (Prod.mk.inj (List.cons.inj h).1).1
    | isFalse hv, _ => isFalse fun h => hv (Prod.mk.inj (List.cons.inj h).1).2
    | _, isFalse hvs => isFalse fun h => hvs (List.cons.inj h).2

end

instance : DecidableEq Value := decEq

mutual

/-- The value as a message shows it. Texts are quoted. -/
def inspect : Value → String
  | .absent => "None"
  | .flag true => "True"
  | .flag false => "False"
  | .number n => toString n
  | .double x => x.render
  | .text s => Text.quoted s
  | .list items => "[" ++ ", ".intercalate (inspectItems items) ++ "]"
  | .record fields => "\x7b" ++ ", ".intercalate (inspectFields fields) ++ "\x7d"

/-- The members of a list as a message shows them. -/
def inspectItems : List Value → List String
  | [] => []
  | v :: vs => v.inspect :: inspectItems vs

/-- The fields of a record as a message shows them. -/
def inspectFields : List (String × Value) → List String
  | [] => []
  | (name, v) :: fields => (Text.quoted name ++ ": " ++ v.inspect) :: inspectFields fields

end

/-- The value as it appears in running text: like `inspect`, but a text stands for itself. -/
def display : Value → String
  | .text s => s
  | v => v.inspect

mutual

/-- Whether all numbers in a value are short enough to be shown. -/
def isShowable : Value → Bool
  | .absent | .flag _ | .double _ | .text _ => true
  | .number n => n.natAbs < Text.longNumber
  | .list items => areShowable items
  | .record fields => haveShowable fields

/-- Whether all members of a list can be shown. -/
def areShowable : List Value → Bool
  | [] => true
  | v :: vs => v.isShowable && areShowable vs

/-- Whether all fields of a record can be shown. -/
def haveShowable : List (String × Value) → Bool
  | [] => true
  | (_, v) :: fields => v.isShowable && haveShowable fields

end

/-- The value as a message shows it, if it can be shown. -/
def inspected (v : Value) : Except ShowError String :=
  if v.isShowable then .ok v.inspect else .error .longNumber

/-- The value as it appears in running text, if it can be shown. -/
def displayed (v : Value) : Except ShowError String :=
  if v.isShowable then .ok v.display else .error .longNumber

/-- Whether a value counts as yes: not absent, not false, not zero and not empty. -/
def isTruthy : Value → Bool
  | .absent => false
  | .flag b => b
  | .number n => n ≠ 0
  | .double x => !x.isZero
  | .text s => s ≠ ""
  | .list items => !items.isEmpty
  | .record fields => !fields.isEmpty

/-- The name of a value's kind. -/
def kindName : Value → String
  | .absent => "NoneType"
  | .flag _ => "bool"
  | .number _ => "int"
  | .double _ => "float"
  | .text _ => "str"
  | .list _ => "list"
  | .record _ => "dict"

/-- The whole number that a value is, flags being one and zero. -/
def toInt? : Value → Option Int
  | .flag b => some (if b then 1 else 0)
  | .number n => some n
  | _ => none

/-- The column that a value stands for. -/
def column (v : Value) : Int := v.toInt?.getD 0

/-- The characters of a text. -/
def chars : Value → List Char
  | .text s => s.toList
  | _ => []

/-- The number that a value is, as a whole number divided by a positive one. -/
def ratio? : Value → Option (Int × Nat)
  | .double x => x.ratio?
  | v => v.toInt?.map fun n => (n, 1)

/-- Whether two values are equal numbers, whatever their kind. -/
def sameNumber (v w : Value) : Bool :=
  match v.ratio?, w.ratio? with
  | some (m, p), some (n, q) => m * (q : Int) == n * (p : Int)
  | _, _ => false

mutual

/-- Whether two values are equal. Numbers are compared by size, and fields by name; what is no number equals
nothing. -/
def same : Value → Value → Bool
  | .absent, w => w = .absent
  | .text s, w => w = .text s
  | .double (.infinite negative), w => w = .double (.infinite negative)
  | .list items, w => match w with
    | .list others => sameItems items others
    | _ => false
  | .record fields, w => match w with
    | .record others => fields.length == others.length && sameFields fields others
    | _ => false
  | v, w => v.sameNumber w

/-- Whether two lists have equal members. -/
def sameItems : List Value → List Value → Bool
  | [], [] => true
  | v :: vs, w :: ws => v.same w && sameItems vs ws
  | _, _ => false

/-- Whether every field has an equal one among others. -/
def sameFields : List (String × Value) → List (String × Value) → Bool
  | [], _ => true
  | (name, v) :: fields, others =>
    (match others.lookup name with
      | some w => v.same w
      | none => false) && sameFields fields others

end

end Value

end ListingEditor
