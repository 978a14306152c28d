import Reporting.Schema.Build

/-!
# The schema of the rewards programme

Travel agencies earn points with imported sales, keep them in a ledger, and spend them on orders of
catalogue products. `Schema.rewards` is the schema that reports use unless they are given another.
-/

namespace Reporting.Schema

/-- The tables of the rewards programme. Products can only be joined. -/
def rewardsTables : List Table := [
  { name := "agency_points_import_items"
    description := "Rows of imported agency sales spreadsheets"
    fields := ["id", "import_id", "sale_id", "sale_date", "cnpj", "agency_name", "branch", "store",
       "executive_name", "supplier", "product_name", "company", "points"]
    numericFields := ["points"] },
  { name := "agencies"
    description := "Registered travel agencies"
    fields := ["id", "cnpj", "name", "email", "phone", "address", "active", "branch",
       "executive_name", "created_at", "updated_at"] },
  { name := "agency_points_ledger"
    description := "Points credits and debits per agency"
    fields := ["id", "agency_id", "source_type", "source_id", "points", "description", "created_at"]
    numericFields := ["points"] },
  { name := "orders"
    description := "Reward orders placed by agencies"
    fields := ["id", "agency_id", "total_points", "status", "created_at", "updated_at"]
    numericFields := ["total_points"] },
  { name := "order_items"
    description := "Line items of reward orders"
    fields := ["id", "order_id", "product_id", "quantity", "points_per_unit"]
    numericFields := ["quantity", "points_per_unit"] },
  { name := "products"
    description := "Reward catalog products"
    fields := ["id", "category_id", "name", "description", "quantity", "active", "created_at",
       "updated_at"]
    numericFields := ["quantity"]
    reportable := false }]

/-- The joins of the rewards programme, all of them left joins. -/
def rewardsRelationships : List Relationship := [
  { source := "agency_points_import_items"
    key := "agency"
    target := "agencies"
    reference := "agencies"
    predicate := "agencies.cnpj = agency_points_import_items.cnpj" },
  { source := "agency_points_ledger"
    key := "agency"
    target := "agencies"
    reference := "agencies"
    predicate := "agencies.id = agency_points_ledger.agency_id" },
  { source := "orders"
    key := "agency"
    target := "agencies"
    reference := "agencies"
    predicate := "agencies.id = orders.agency_id" },
  { source := "orders"
    key := "items"
    target := "order_items"
    reference := "order_items"
    predicate := "order_items.order_id = orders.id" },
  { source := "orders"
    key := "product"
    target := "products"
    reference := "products"
    predicate := "products.id = order_items.product_id"
    requires := some "items" },
  { source := "order_items"
    key := "order"
    target := "orders"
    reference := "orders"
    predicate := "orders.id = order_items.order_id" },
  { source := "order_items"
    key := "product"
    target := "products"
    reference := "products"
    predicate := "products.id = order_items.product_id" }]

def rewards : Schema where
  tables := rewardsTables.map fun table => (table.name, table)
  relationships := rewardsRelationships

/-- Its tables and relationships fit together. -/
theorem build_rewards : build rewards.tables rewards.relationships = .ok rewards := by
  have declared : firstFault? rewards.tables [] rewards.relationships = none := by decide +kernel
  have required : requirementFault? ⟨rewards.tables, rewards.relationships⟩ = none := by
    decide +kernel
  simp only [build, declared, required]

end Reporting.Schema
