import FleetEnergy.Main
import FleetEnergy.Proofs.Delivery
import FleetEnergy.Proofs.Exact.Compass
import FleetEnergy.Proofs.Exact.Drive
import FleetEnergy.Proofs.Mobility.Itinerary
import FleetEnergy.Proofs.Mobility.Trace
import FleetEnergy.Proofs.Simulation.Admission
import FleetEnergy.Proofs.Simulation.Ending
import FleetEnergy.Proofs.Simulation.Solo
import FleetEnergy.Proofs.Simulation.Timetable
import FleetEnergy.Proofs.Bookkeeping
import FleetEnergy.Proofs.Backlog
import FleetEnergy.Proofs.HeapQueue
import FleetEnergy.Proofs.Config.RoundTrip
import FleetEnergy.Proofs.Mobility.Journey
import FleetEnergy.Proofs.File.Tree
import FleetEnergy.Proofs.Host
import FleetEnergy.Proofs.Scenario.Participation
import FleetEnergy.Proofs.Scenario.Run
import FleetEnergy.Proofs.UpdateLoop.Idle
import FleetEnergy.Proofs.Mobility.Line
import FleetEnergy.Proofs.Mobility.Teleport
import FleetEnergy.Proofs.Mobility.Standstill
import FleetEnergy.Proofs.Exact.Motion
import FleetEnergy.Proofs.Profile.Verdict
import FleetEnergy.Proofs.Records
import FleetEnergy.Proofs.EnergyTable
import FleetEnergy.Proofs.Load
import FleetEnergy.Proofs.Random.Seeding
import FleetEnergy.Proofs.Simulation.Fraction
import FleetEnergy.Proofs.Turning.Unwinding
