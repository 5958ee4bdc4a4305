import Outbox.Deployment
import Outbox.Handover

/-! # A shop that cancels an order

When an order is cancelled, its products are to be indexed anew, the buyer gets a receipt, and two
others are told. The mail gateway times out a few times before it takes the receipt. One of the
messages has no consumer yet.
-/

namespace Outbox.Demo

open Json (Schema)

def orderCancelled : EventKind :=
  ⟨"OrderCancelled",
    .record "OrderCancelled" (.field "order_id" .text (.field "product_ids" (.list .text) .done))⟩

def reindexProduct : MessageKind :=
  ⟨⟨"catalog.product.reindex.v1"⟩, .record "ReindexProduct" (.field "product_id" .text .done)⟩

def sendReceipt : MessageKind :=
  ⟨⟨"mail.receipt.v1"⟩,
    .record "SendReceipt" (.field "order_id" .text (.field "email" .text .done))⟩

def analyticsTag : MessageType := ⟨"analytics.order.cancelled.v2"⟩

def cancelledEvent (order : String) (products : List String) : Handover :=
  .event orderCancelled ((order, (products, ())) : String × List String × Unit)

def reindexing (product : String) : Handover :=
  .message reindexProduct ((product, ()) : String × Unit)

def receipt (order email : String) : Handover :=
  .message sendReceipt ((order, (email, ())) : String × String × Unit)

/-- The messages that go out when an order is cancelled. -/
def cancellation (order : String) : List Handover :=
  let products := ["sku-1", "sku-2"]
  cancelledEvent order products ::
    products.map reindexing ++
    [receipt order "buyer@example.com",
      .raw analyticsTag .any (.object [("order_id", .text order)])]

/-- A consumer whose calls depend on how often the mail gateway will still time out. -/
abbrev ShopConsumer := Consumer (StateM Nat CallOutcome)

/-- A consumer that is content with everything it can read. -/
def content (name : String) (s : Schema) : ShopConsumer :=
  ⟨name, .typed s, fun _ => return .succeeded⟩

def mailer : ShopConsumer :=
  ⟨"ReceiptMailer", .typed sendReceipt.schema, fun _ => do
    let left ← get
    if left = 0 then return .succeeded
    set (left - 1)
    let reason := "mail gateway timeout (left=" ++ toString left ++ ")"
    return .ofReport sendReceipt.tag (.error ⟨reason⟩)⟩

/-- How often the mail gateway times out at first. -/
def firstTimeouts : Nat := 2

def consumers : List (MessageType × ShopConsumer) :=
  [(orderCancelled.tag, content "OrderCacheInvalidator" orderCancelled.schema),
    (reindexProduct.tag, content "SearchReindexer" reindexProduct.schema),
    (sendReceipt.tag, mailer)]

/-- The tags that must not be without a consumer. -/
def expected : List MessageType := [orderCancelled.tag, reindexProduct.tag, sendReceipt.tag]

/-- Adds consumers to what a deployment is assembled from. -/
def registerAll : List (MessageType × ShopConsumer) → Blueprint ShopConsumer →
    Except RegistryError (Blueprint ShopConsumer)
  | [], b => .ok b
  | (tag, k) :: rest, b => do registerAll rest (← b.register tag k)

/-- The shop's deployment, or what stands against it. -/
def deployment (config : Config) : Except String (Deployment ShopConsumer) :=
  match registerAll consumers { Blueprint.empty with config := config } with
  | .error error => .error error.message
  | .ok b => (b.expect expected).build.mapError AssemblyError.message

end Outbox.Demo
