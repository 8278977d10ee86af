import QueryDraft.BadValue
import QueryDraft.Catalog.Basic

/-!
# Sample catalogs

Two catalogs that come with the library: a small shop in one schema, and one spread over several
schemas in which a table has a namesake and a foreign key names no schema.
-/

namespace QueryDraft.Catalog

/-- Users, their orders and the items of the orders. -/
def shop : Catalog where
  name := "ecommerce_sample"
  origin := some .simulated
  tables := [
    { name := "users"
      description := some "Registered users"
      columns := [
        { name := "id", type := "SERIAL", isPrimaryKey := true },
        { name := "name", type := "VARCHAR(100)" },
        { name := "email", type := "VARCHAR(100)" },
        { name := "created_at", type := "TIMESTAMP" },
        { name := "country", type := "VARCHAR(50)" }] },
    { name := "orders"
      description := some "Orders placed by users"
      columns := [
        { name := "id", type := "SERIAL", isPrimaryKey := true },
        { name := "user_id", type := "INTEGER", isForeignKey := true,
          references := some "public.users.id" },
        { name := "total_amount", type := "DECIMAL(10,2)" },
        { name := "status", type := "VARCHAR(20)" },
        { name := "created_at", type := "TIMESTAMP" }] },
    { name := "order_items"
      description := some "Line items of each order"
      columns := [
        { name := "id", type := "SERIAL", isPrimaryKey := true },
        { name := "order_id", type := "INTEGER", isForeignKey := true,
          references := some "public.orders.id" },
        { name := "product_name", type := "VARCHAR(100)" },
        { name := "quantity", type := "INTEGER" },
        { name := "price", type := "DECIMAL(10,2)" }] }]

/-- Customers in `ref`, orders and refunds in `sales`, and old orders in `archive`. -/
def multiSchema : Catalog where
  name := "multi_schema_sample"
  origin := some .simulated
  tables := [
    { name := "customers"
      schema := "ref"
      description := some "Customer reference data"
      columns := [
        { name := "customer_id", type := "integer", isPrimaryKey := true },
        { name := "full_name", type := "varchar" },
        { name := "country_code", type := "char(2)" }] },
    { name := "orders"
      schema := "sales"
      description := some "Customer orders"
      columns := [
        { name := "id", type := "integer", isPrimaryKey := true },
        { name := "customer_id", type := "integer", isForeignKey := true,
          references := some "ref.customers.customer_id" },
        { name := "amount_usd", type := "numeric" },
        { name := "order_date", type := "date" }] },
    { name := "refunds"
      schema := "sales"
      description := some "Refunds issued against orders"
      columns := [
        { name := "refund_id", type := "integer", isPrimaryKey := true },
        { name := "order_id", type := "integer", isForeignKey := true,
          references := some "orders.id" },
        { name := "amount_usd", type := "numeric" }] },
    { name := "orders"
      schema := "archive"
      description := some "Orders moved out of the hot partition"
      columns := [
        { name := "id", type := "integer", isPrimaryKey := true },
        { name := "customer_id", type := "integer" },
        { name := "amount_usd", type := "numeric" },
        { name := "archived_at", type := "timestamp" }] }]

/-- The sample catalogs by name, in the order of their names. -/
def samples : List (String × Catalog) :=
  [("ecommerce", shop), ("multi_schema", multiSchema)]

/-- A sample catalog by name. -/
def load (name : String) : Except BadValue Catalog :=
  match samples.lookup name with
  | some c => .ok c
  | none => .error (.unknownCatalog name (samples.map (·.1)))

end QueryDraft.Catalog
