import Mathlib.Algebra.GroupWithZero.Nat
import Mathlib.Order.Fin.Basic
import MktSim.Lib.KeySpace

set_option autoImplicit false

namespace MktSim

open Redis

-- The number whose sixteen big-endian bytes are the identifier. Those bytes are
-- what `ToRedisArgs` writes, and their order is the order of the numbers.
structure Uuid where
  asU128 : Fin (2 ^ 128)
deriving DecidableEq, Repr

instance u128NeZero : NeZero (2 ^ 128) := ⟨Nat.ne_of_gt (Nat.two_pow_pos 128)⟩

theorem as_u128_injective : Function.Injective Uuid.asU128 := by
  rintro ⟨a⟩ ⟨b⟩ same
  exact congrArg Uuid.mk same

instance : LinearOrder Uuid := LinearOrder.lift' Uuid.asU128 as_u128_injective

def ADMIN_ACCOUNT_ID : Uuid := ⟨⟨0x6eb621610cdb471aaf3161949f09495b, by decide⟩⟩

inductive Book where
  | bids
  | offers
deriving DecidableEq, Repr

def Book.opposite : Book → Book
  | .bids => .offers
  | .offers => .bids

inductive OrderType where
  | market
  | limit (price : Int32)
deriving DecidableEq

structure CreateOrderForm where
  size : UInt32
  orderType : OrderType
deriving DecidableEq

inductive OrderTag where
  | market
  | limit
deriving DecidableEq, Repr

-- ARGV of the script. The price is absent when the argument list ends before it.
structure ScriptArgs where
  side : Book
  size : Int
  orderType : OrderTag
  price : Option Int
deriving DecidableEq, Repr

def CreateOrderForm.writeRedisArgs (book : Book) (form : CreateOrderForm) : ScriptArgs :=
  match form.orderType with
  | .market => ⟨book, form.size.toNat, .market, none⟩
  | .limit price => ⟨book, form.size.toNat, .limit, some price.toInt⟩

-- `{asset_id}_bids` and `{asset_id}_offers`, and keys named by an argument or a stored string.
inductive Key where
  | book (assetId : Int32) (side : Book)
  | name (text : Bulk Uuid)
deriving DecidableEq

abbrev Key.id (uuid : Uuid) : Key := .name (.raw uuid)

structure ScriptKeys where
  assetId : Int32
  bookBid : Key
  bookOffer : Key
  accountId : Uuid
  orderId : Uuid
deriving DecidableEq

-- What `submit_orders_for_account` knows of one order when it calls the script.
structure Submission where
  accountId : Uuid
  assetId : Int32
  book : Book
  form : CreateOrderForm
  orderId : Uuid
deriving DecidableEq

def Submission.keys (order : Submission) : ScriptKeys :=
  ⟨order.assetId, .book order.assetId .bids, .book order.assetId .offers, order.accountId, order.orderId⟩

def Submission.args (order : Submission) : ScriptArgs := order.form.writeRedisArgs order.book

def Submission.size (order : Submission) : Nat := order.form.size.toNat

-- The price the script computes with: a missing argument counts as 0.
def Submission.price (order : Submission) : Int :=
  match order.form.orderType with
  | .market => 0
  | .limit price => price.toInt

theorem Submission.size_lt (order : Submission) : order.size < 2 ^ 32 := order.form.size.toNat_lt

theorem limit_price {order : Submission} {price : Int32} (form : order.form.orderType = .limit price) :
    order.price = price.toInt := by
  rw [Submission.price, form]

theorem Submission.args_eq (order : Submission) :
    order.args.side = order.book ∧ order.args.size = order.size ∧ order.args.price.getD 0 = order.price := by
  rcases form : order.form.orderType with _ | price <;>
    simp [Submission.args, CreateOrderForm.writeRedisArgs, Submission.size, Submission.price, form]

inductive Field where
  | accountId
  | assetId
  | price
  | size
  | originalSize
  | dollarVolumeFilled
deriving DecidableEq, Repr

abbrev Store := KeySpace Key Field Uuid

end MktSim
