import CommercePlatform.Auth.Secrets
import CommercePlatform.Inventory.Concurrent
import CommercePlatform.Inventory.Recurring
import CommercePlatform.Service.Blocked
import CommercePlatform.Payments.Effects
import CommercePlatform.Bff.Rotation
import CommercePlatform.Bff.Administration
import CommercePlatform.Bff.Binding
import CommercePlatform.Bff.Handshake
import CommercePlatform.Bff.SessionView
import CommercePlatform.Saga.Racing
import CommercePlatform.Saga.Validity
import CommercePlatform.Saga.Correlation
import CommercePlatform.Saga.Delivery
import CommercePlatform.Saga.Refinement
import CommercePlatform.Saga.Rest
import CommercePlatform.Saga.Answers
import CommercePlatform.Edge.Mediation
import CommercePlatform.Edge.Passage
import CommercePlatform.Edge.Replies
import CommercePlatform.Edge.Reports
import CommercePlatform.Bff.Identity
import CommercePlatform.Bff.Assignment
import CommercePlatform.Orders.Fingerprint
import CommercePlatform.Saga.Carried
import CommercePlatform.Pg.Timestamp
import CommercePlatform.Pg.Uuid
